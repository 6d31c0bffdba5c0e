import GuestControl.Proofs.Operation.Course
import GuestControl.Rehearsal

/-!
# Why operations fail

`Cause` lists, by what the pipelines of an operation came to, every way in which it
ends in an error once the check has passed, with the error. An operation ends in an
error exactly if there is a cause of it. Which errors an operation can have at all
is read off the list.
-/

namespace GuestControl

open Manager
open Service (Gate)

-- ---------------------------------------------------------------------------
-- Errors of records
-- ---------------------------------------------------------------------------

def Error.isMaterialization : Error → Bool
  | materialization .. => true
  | _ => false

namespace Schema

variable {τ : Type} {schema : Schema τ} {r : Record} {e : Error}

theorem readInto_error {x : τ} {fields : List (Field τ)} (h : readInto r x fields = .error e) :
    ∃ f ∈ fields, ∃ m, e = .ofMismatch f.name m := by
  induction fields generalizing x with
  | nil => cases h
  | cons f fields ih =>
    have hrest {x : τ} (h : readInto r x fields = .error e) :
        ∃ f' ∈ f :: fields, ∃ m, e = .ofMismatch f'.name m :=
      have ⟨f', hf', hm⟩ := ih h
      ⟨f', List.mem_cons_of_mem f hf', hm⟩
    unfold readInto at h
    split at h
    · exact hrest h
    · split at h
      · exact hrest h
      · cases h
        exact ⟨f, List.mem_cons_self, _, rfl⟩

theorem read_error (h : schema.read r = .error e) :
    ∃ f ∈ schema.fields, ∃ m, e = .ofMismatch f.name m := readInto_error h

end Schema

theorem Manager.sizeOf_error {o : Outcome} {e : Error} (h : sizeOf o = .error e) :
    ∃ m, e = .ofMismatch Member.size m := by
  unfold sizeOf at h
  split at h
  · cases h
  · split at h
    · cases h
    · cases h
      exact ⟨_, rfl⟩

namespace Operation

/-- The operation goes by a record that cannot be read. -/
def Misreads : Operation → Outcome → Error → Prop
  | .getMachine _, o, e | .start _, o, e | .stop _ _, o, e | .pause _, o, e | .resume _, o, e
  | .restart _, o, e | .create _, o, e | .applyCheckpoint _ _, o, e =>
    ∃ r, o.first? = some r ∧ Machine.schema.read r = .error e
  | .getHost, o, e => ∃ r, o.first? = some r ∧ Host.schema.read r = .error e
  | .takeCheckpoint _, o, e => ∃ r, o.first? = some r ∧ Checkpoint.schema.read r = .error e
  | .diskSize _, o, e => Manager.sizeOf o = .error e
  | .listMachines, _, _ | .listCheckpoints _, _, _ | .remove _, _, _
  | .removeCheckpoint _ _, _, _ => False

/-- What an operation says that needs a record and is given none. -/
def missing? : Operation → Option String
  | .getHost => some "no host object returned"
  | .create _ => some "no virtual machine object returned"
  | _ => none

def AsksBack : Operation → Prop
  | .remove _ | .applyCheckpoint _ _ | .removeCheckpoint _ _ => True
  | _ => False

inductive Cause (op : Operation) : List Execution → Error → Prop
  | first : Cause op [.failed x]
      (.operationFailed op.first.operation op.first.resource x.message unexpectedCode)
  | second : op.AsksBack → Cause op [.finished o, .failed x]
      (.operationFailed op.first.operation op.first.resource x.message unexpectedCode)
  | text : op.isChecked = true → o.hasError = true → Cause op [.finished o]
      (.operationFailed op.first.operation op.first.resource o.errorText
        (if o.errorCode = 0 then unexpectedCode else o.errorCode))
  | notFound {id : Guid} : op = .getMachine id → o.hasError = false → o.first? = none →
      Cause op [.finished o] (.notFound id unexpectedCode)
  | missing : op.missing? = some text → o.hasError = false → o.first? = none →
      Cause op [.finished o]
        (.operationFailed op.first.operation op.first.resource text unexpectedCode)
  | misread : ¬ op.AsksBack → (op.isChecked = true → o.hasError = false) → op.Misreads o e →
      Cause op [.finished o] e
  | misreadAgain : op.AsksBack → op.Misreads again e →
      Cause op [.finished o, .finished again] e

variable {op : Operation} {o : Outcome} {e : Error} {xs : List Exchange} {ending : Ending Answer}
  {es : List Execution}

theorem Misreads.isMaterialization (h : op.Misreads o e) : e.isMaterialization = true := by
  cases op with
  | getMachine _ | start _ | stop _ _ | pause _ | resume _ | restart _ | create _
  | applyCheckpoint _ _ | getHost | takeCheckpoint _ =>
    obtain ⟨r, -, hread⟩ := h
    obtain ⟨f, -, m, rfl⟩ := Schema.read_error hread
    rfl
  | diskSize path =>
    obtain ⟨m, rfl⟩ := Manager.sizeOf_error h
    rfl
  | listMachines | listCheckpoints _ | remove _ | removeCheckpoint _ _ => exact h.elim

theorem sequel_of_misreads (hlast : ¬ op.AsksBack) (h : op.Misreads o e) :
    op.sequel o = .done (.error e) := by
  cases op with
  | getMachine _ | start _ | stop _ _ | pause _ | resume _ | restart _ | create _ | getHost
  | takeCheckpoint _ =>
    obtain ⟨r, hfirst, hread⟩ := h
    simp only [sequel, reached, hasTaken, hfirst, hread, Except.map]
  | diskSize path => exact congrArg (fun x => Sequel.done (Except.map Answer.size x)) h
  | applyCheckpoint _ _ => exact absurd trivial hlast
  | listMachines | listCheckpoints _ | remove _ | removeCheckpoint _ _ => exact h.elim

theorem map_eq_error {α β : Type} {x : Except Error α} {f : α → β} (h : x.map f = .error e) :
    x = .error e := by
  cases x with
  | ok a => cases h
  | error e' =>
    cases h
    rfl

theorem misread_of_verdict {τ : Type} {schema : Schema τ} {f : τ → Bool}
    (h : (match o.first? with
      | none => .ok false
      | some r => (schema.read r).map f) = Except.error e) :
    ∃ r, o.first? = some r ∧ schema.read r = .error e := by
  cases hfirst : o.first? with
  | none =>
    rw [hfirst] at h
    cases h
  | some r =>
    rw [hfirst] at h
    exact ⟨r, rfl, map_eq_error h⟩

theorem cause_of_sequel (hclean : op.isChecked = true → o.hasError = false)
    (h : op.sequel o = .done (.error e)) : op.Cause [.finished o] e := by
  cases op with
  | listMachines | listCheckpoints _ | applyCheckpoint _ _ | removeCheckpoint _ _ => cases h
  | remove id =>
    simp only [sequel] at h
    split at h
    · cases h
    · cases h
  | diskSize path => exact .misread not_false hclean (map_eq_error (Sequel.done.inj h))
  | start _ | stop _ _ | pause _ | resume _ | restart _ | takeCheckpoint _ =>
    exact .misread not_false hclean (misread_of_verdict (map_eq_error (Sequel.done.inj h)))
  | getMachine id =>
    simp only [sequel] at h
    cases hfirst : o.first? with
    | none =>
      rw [hfirst] at h
      cases h
      exact .notFound rfl (hclean rfl) hfirst
    | some r =>
      rw [hfirst] at h
      exact .misread not_false hclean ⟨r, hfirst, map_eq_error (Sequel.done.inj h)⟩
  | getHost =>
    simp only [sequel] at h
    cases hfirst : o.first? with
    | none =>
      rw [hfirst] at h
      cases h
      exact .missing rfl (hclean rfl) hfirst
    | some r =>
      rw [hfirst] at h
      exact .misread not_false hclean ⟨r, hfirst, map_eq_error (Sequel.done.inj h)⟩
  | create c =>
    simp only [sequel] at h
    cases hfirst : o.first? with
    | none =>
      rw [hfirst] at h
      cases h
      exact .missing rfl (hclean rfl) hfirst
    | some r =>
      rw [hfirst] at h
      dsimp only at h
      cases hread : Machine.schema.read r with
      | ok m =>
        rw [hread] at h
        cases h
      | error e' =>
        rw [hread] at h
        cases h
        exact .misread not_false hclean ⟨r, hfirst, hread⟩

theorem ofExcept_eq_error {result : Except Error Answer}
    (h : Ending.ofExcept result = .error e) : result = .error e := by
  cases result with
  | ok a => cases h
  | error e' =>
    cases h
    rfl

theorem asksBack_of_query {p : Pipeline} {mode : Mode} {judge : Outcome → Except Error Answer}
    (h : op.sequel o = .query p mode judge) : op.AsksBack := by
  obtain ⟨_, rfl, -⟩ | ⟨_, _, rfl, -⟩ | ⟨_, _, rfl, -⟩ := sequel_query h
  · trivial
  · trivial
  · trivial

def results (xs : List Exchange) : List Execution :=
  (xs.filterMap Exchange.execution?).map (·.2)

theorem Course.cause_of_error (h : op.Course xs ending) (hending : ending = .error e) :
    op.Cause (results xs) e := by
  cases h with
  | @stopped execution _ hstops =>
    subst hending
    cases execution with
    | failed x =>
      cases hstops
      exact .first
    | crashed report => cases hstops
    | finished o =>
      simp only [stops?] at hstops
      split at hstops
      · cases hstops
        obtain ⟨hchecked, herror⟩ := Bool.and_eq_true_iff.mp ‹_›
        exact .text hchecked herror
      · cases hstops
  | done hgoes hsequel =>
    rw [ofExcept_eq_error hending] at hsequel
    exact cause_of_sequel (stops?_finished.mp hgoes) hsequel
  | @query o p mode judge execution hgoes hsequel =>
    cases execution with
    | failed x =>
      cases hending
      exact .second (asksBack_of_query hsequel)
    | crashed report => cases hending
    | finished again =>
      have hjudged : judge again = .error e := ofExcept_eq_error hending
      refine .misreadAgain (asksBack_of_query hsequel) ?_
      obtain ⟨id, rfl, -, -, -, rfl⟩ | ⟨id, checkpoint, rfl, -, -, rfl⟩ |
        ⟨id, checkpoint, rfl, -, -, rfl⟩ := sequel_query hsequel
      · cases hjudged
      · exact misread_of_verdict (map_eq_error hjudged)
      · cases hjudged
  | @settings o p m execution hgoes hsequel =>
    cases execution with
    | _ => cases hending

theorem sequel_of_missing {text : String} (h : op.missing? = some text)
    (hfirst : o.first? = none) : op.sequel o = .done (.error
      (.operationFailed op.first.operation op.first.resource text unexpectedCode)) := by
  cases op with
  | getHost | create _ =>
    cases h
    simp only [sequel, hfirst]
    rfl
  | _ => cases h

theorem Cause.of_first {x : Execution} (h : op.Cause [x] e) : op.stops? x = some (.error e) ∨
    ∃ o, x = .finished o ∧ op.stops? x = none ∧ op.sequel o = .done (.error e) := by
  have hgoes {o : Outcome} (herror : o.hasError = false) : op.stops? (.finished o) = none :=
    stops?_finished.mpr fun _ => herror
  cases h with
  | first => exact .inl rfl
  | text hchecked herror =>
    refine .inl ?_
    simp only [stops?, hchecked, herror]
    rfl
  | notFound hop herror hfirst =>
    subst hop
    exact .inr ⟨_, rfl, hgoes herror, by simp only [sequel, hfirst]⟩
  | missing hmissing herror hfirst =>
    exact .inr ⟨_, rfl, hgoes herror, sequel_of_missing hmissing hfirst⟩
  | misread hlast hclean hmisreads =>
    exact .inr ⟨_, rfl, stops?_finished.mpr hclean, sequel_of_misreads hlast hmisreads⟩

theorem Cause.not_create {c : Machine.Creation} {x : Execution} :
    ¬ (create c).Cause [.finished o, x] e := by
  intro h
  cases h with
  | second hasks => exact hasks.elim
  | misreadAgain hasks => exact hasks.elim

theorem Course.error_of_cause (h : op.Course xs ending) (hcause : op.Cause (results xs) e) :
    ending = .error e := by
  cases h with
  | @stopped execution _ hstops =>
    obtain hstops' | ⟨o, rfl, hgoes, -⟩ := Cause.of_first (x := execution) hcause
    · exact Option.some.inj (hstops.symm.trans hstops')
    · cases hgoes.symm.trans hstops
  | @done o result hgoes hsequel =>
    obtain hstops | ⟨_, ho, -, hsequel'⟩ := Cause.of_first (x := .finished o) hcause
    · cases hgoes.symm.trans hstops
    · cases ho
      rw [Sequel.done.inj (hsequel.symm.trans hsequel')]
      rfl
  | @query o p mode judge execution hgoes hsequel =>
    change op.Cause [.finished o, execution] e at hcause
    cases hcause with
    | second => rfl
    | misreadAgain hasks hmisreads =>
      obtain ⟨id, rfl, -⟩ | ⟨id, checkpoint, rfl, -, -, rfl⟩ | ⟨id, checkpoint, rfl, -⟩ :=
        sequel_query hsequel
      · exact hmisreads.elim
      · obtain ⟨r, hfirst, hread⟩ := hmisreads
        simp only [judged, hasApplied, hfirst, hread]
        rfl
      · exact hmisreads.elim
  | @settings o p m execution hgoes hsequel =>
    obtain ⟨c, r, rfl, -⟩ := sequel_settings hsequel
    exact (Cause.not_create (x := execution) hcause).elim

/-- An operation whose check passes fails exactly if there is a cause. -/
theorem Course.error_iff (h : op.Course xs ending) :
    ending = .error e ↔ op.Cause (results xs) e :=
  ⟨h.cause_of_error, h.error_of_cause⟩

-- ---------------------------------------------------------------------------
-- Which errors an operation can have
-- ---------------------------------------------------------------------------

structure Classified (op : Operation) (es : List Execution) (ending : Ending Answer) : Prop where
  error_iff : ∀ e, ending = .error e ↔ op.Cause es e
  /-- A pipeline that could not be run fails the operation, unless it was to apply settings. -/
  failed : ∀ x, .failed x ∈ es →
    ending = .error (.operationFailed op.first.operation op.first.resource x.message
      unexpectedCode) ∨ ∃ c o, op = .create c ∧ es = [.finished o, .failed x]
  settings : ∀ c o x, op = .create c → es = [.finished o, x] → ∀ e, ending ≠ .error e
  text : ∀ o, op.isChecked = true → es.head? = some (.finished o) → o.hasError = true →
    ending = .error (.operationFailed op.first.operation op.first.resource o.errorText
      (if o.errorCode = 0 then unexpectedCode else o.errorCode))
  /-- Error text that is not checked is no error: all depends on the records. -/
  unchecked : ∀ o, op.isChecked = false → es = [.finished o] →
    ∀ e, ending = .error e ↔ op.Cause [.finished { records := o.records }] e
  notFound : ∀ id code, ending = .error (.notFound id code) ↔ op = .getMachine id ∧
    code = unexpectedCode ∧ ∃ o, es = [.finished o] ∧ o.hasError = false ∧ o.records = []
  materialization : ∀ field expected found,
    ending = .error (.materialization field expected found) ↔
      (∃ o, es = [.finished o] ∧ ¬ op.AsksBack ∧ (op.isChecked = true → o.hasError = false) ∧
        op.Misreads o (.materialization field expected found)) ∨
      ∃ o again, es = [.finished o, .finished again] ∧ op.AsksBack ∧
        op.Misreads again (.materialization field expected found)
  clean : (∀ x ∈ es, ∃ o, x = .finished o ∧ o.hasError = false) →
    ∀ operation resource text code,
      ending = .error (.operationFailed operation resource text code) →
      (op = .getHost ∨ ∃ c, op = .create c) ∧ ∃ o, es = [.finished o] ∧ o.records = []

theorem Course.failed (h : op.Course xs ending) {x : ExecutorError} (hx : .failed x ∈ results xs) :
    ending = .error (.operationFailed op.first.operation op.first.resource x.message
      unexpectedCode) ∨ ∃ c o, op = .create c ∧ results xs = [.finished o, .failed x] := by
  cases h with
  | @stopped execution _ hstops =>
    obtain rfl := List.mem_singleton.mp hx
    cases hstops
    exact .inl rfl
  | done => cases List.mem_singleton.mp hx
  | @query o p mode judge execution =>
    rcases List.mem_cons.mp hx with hx | hx
    · cases hx
    · obtain rfl := List.mem_singleton.mp hx
      exact .inl rfl
  | @settings o p m execution hgoes hsequel =>
    obtain ⟨c, r, hop, -⟩ := sequel_settings hsequel
    rcases List.mem_cons.mp hx with hx | hx
    · cases hx
    · obtain rfl := List.mem_singleton.mp hx
      exact .inr ⟨c, o, hop, rfl⟩

theorem Course.text (h : op.Course xs ending) (hchecked : op.isChecked = true)
    (hfirst : (results xs).head? = some (.finished o)) (herror : o.hasError = true) :
    results xs = [.finished o] := by
  have hstops : op.stops? (.finished o) ≠ none := fun hgoes => by
    cases herror.symm.trans (stops?_finished.mp hgoes hchecked)
  cases h with
  | stopped => exact congrArg ([·]) (Option.some.inj hfirst)
  | done hgoes =>
    cases hfirst
    exact absurd hgoes hstops
  | query hgoes =>
    cases hfirst
    exact absurd hgoes hstops
  | settings hgoes =>
    cases hfirst
    exact absurd hgoes hstops

theorem Misreads.of_records {o' : Outcome} (h : op.Misreads o e) (ho : o.records = o'.records) :
    op.Misreads o' e := by
  obtain ⟨records, text, code⟩ := o
  subst ho
  cases op with
  | _ => exact h

theorem Cause.of_records {o' : Outcome} (h : op.Cause [.finished o] e)
    (hunchecked : op.isChecked = false) (ho : o.records = o'.records) :
    op.Cause [.finished o'] e := by
  cases h with
  | text hchecked => cases hunchecked.symm.trans hchecked
  | notFound hop =>
    subst hop
    cases hunchecked
  | missing hmissing =>
    cases op with
    | getHost | create _ => cases hunchecked
    | _ => cases hmissing
  | misread hlast _ hmisreads =>
    exact .misread hlast (fun hchecked => by cases hunchecked.symm.trans hchecked)
      (hmisreads.of_records ho)

theorem Cause.notFound_iff {id : Guid} {code : Int32} : op.Cause es (.notFound id code) ↔
    op = .getMachine id ∧ code = unexpectedCode ∧
      ∃ o, es = [.finished o] ∧ o.hasError = false ∧ o.records = [] := by
  constructor
  · intro h
    cases h with
    | notFound hop herror hfirst =>
      exact ⟨hop, rfl, _, rfl, herror, List.head?_eq_none_iff.mp hfirst⟩
    | misread _ _ hmisreads => cases hmisreads.isMaterialization
    | misreadAgain _ hmisreads => cases hmisreads.isMaterialization
  · rintro ⟨hop, rfl, o, rfl, herror, hrecords⟩
    exact .notFound hop herror (List.head?_eq_none_iff.mpr hrecords)

theorem Cause.materialization_iff {field expected found : String} :
    op.Cause es (.materialization field expected found) ↔
      (∃ o, es = [.finished o] ∧ ¬ op.AsksBack ∧ (op.isChecked = true → o.hasError = false) ∧
        op.Misreads o (.materialization field expected found)) ∨
      ∃ o again, es = [.finished o, .finished again] ∧ op.AsksBack ∧
        op.Misreads again (.materialization field expected found) := by
  constructor
  · intro h
    cases h with
    | misread hlast hclean hmisreads => exact .inl ⟨_, rfl, hlast, hclean, hmisreads⟩
    | misreadAgain hasks hmisreads => exact .inr ⟨_, _, rfl, hasks, hmisreads⟩
  · rintro (⟨o, rfl, hlast, hclean, hmisreads⟩ | ⟨o, again, rfl, hasks, hmisreads⟩)
    · exact .misread hlast hclean hmisreads
    · exact .misreadAgain hasks hmisreads

theorem Cause.of_clean {operation text : String} {resource : Option Guid} {code : Int32}
    (h : op.Cause es (.operationFailed operation resource text code))
    (hclean : ∀ x ∈ es, ∃ o, x = .finished o ∧ o.hasError = false) :
    (op = .getHost ∨ ∃ c, op = .create c) ∧ ∃ o, es = [.finished o] ∧ o.records = [] := by
  cases h with
  | first =>
    obtain ⟨o, ho, -⟩ := hclean _ List.mem_cons_self
    cases ho
  | second =>
    obtain ⟨o, ho, -⟩ := hclean _ (List.mem_cons_of_mem _ List.mem_cons_self)
    cases ho
  | text hchecked herror =>
    obtain ⟨o, ho, hnone⟩ := hclean _ List.mem_cons_self
    cases ho
    cases herror.symm.trans hnone
  | missing hmissing herror hfirst =>
    refine ⟨?_, _, rfl, List.head?_eq_none_iff.mp hfirst⟩
    cases op with
    | getHost => exact .inl rfl
    | create c => exact .inr ⟨c, rfl⟩
    | _ => cases hmissing
  | misread _ _ hmisreads => cases hmisreads.isMaterialization
  | misreadAgain _ hmisreads => cases hmisreads.isMaterialization

theorem Course.classified (h : op.Course xs ending) : op.Classified (results xs) ending where
  error_iff e := h.error_iff
  failed x := h.failed
  settings c o x hop hes e hending := by
    subst hop
    rw [h.error_iff, hes] at hending
    exact hending.not_create
  text o hchecked hfirst herror := by
    rw [h.error_iff, h.text hchecked hfirst herror]
    exact .text hchecked herror
  unchecked o hunchecked hes e := by
    rw [h.error_iff, hes]
    exact ⟨fun hcause => hcause.of_records hunchecked rfl,
      fun hcause => hcause.of_records hunchecked rfl⟩
  notFound _ _ := h.error_iff.trans Cause.notFound_iff
  materialization _ _ _ := h.error_iff.trans Cause.materialization_iff
  clean hclean _ _ _ _ hending := (h.error_iff.mp hending).of_clean hclean

theorem Cause.not_unavailable {service : String} {cause : ServiceError} :
    ¬ op.Cause es (.serviceUnavailable service cause) := by
  intro h
  cases h with
  | misread _ _ hmisreads => cases hmisreads.isMaterialization
  | misreadAgain _ hmisreads => cases hmisreads.isMaterialization

theorem exists_first {σ : Type} (op : Operation) {g : Gate} {world : Task.World σ} {w : σ}
    (h : (g.drive.run world w).1 = .ok ()) : ∃ e more,
      Task.executions world (op.call g) w = ((op.first.pipeline, op.first.mode), e) :: more := by
  obtain ⟨xs, hexecutions, hcourse⟩ := op.executions_of_passed h
  obtain ⟨e, more, rfl, -⟩ := hcourse.split
  exact ⟨e, _, hexecutions⟩

/-- An operation finds the service unavailable if the check fails and only then. Else its
first pipeline is run, and all other errors are those of `Cause`. -/
theorem errors_classified {σ : Type} (op : Operation) (g : Gate) (world : Task.World σ) (w : σ) :
    ((∃ service cause, (Task.run world (op.call g) w).1 =
        .error (.serviceUnavailable service cause)) ↔
      ∃ cause, (g.drive.run world w).1 = .error cause) ∧
    ((g.drive.run world w).1 = .ok () →
      (∃ e more, Task.executions world (op.call g) w =
        ((op.first.pipeline, op.first.mode), e) :: more) ∧
      op.Classified ((Task.executions world (op.call g) w).map (·.2))
        (Task.run world (op.call g) w).1) := by
  have hpassed (h : (g.drive.run world w).1 = .ok ()) :
      op.Classified ((Task.executions world (op.call g) w).map (·.2))
        (Task.run world (op.call g) w).1 := by
    obtain ⟨xs, hexecutions, hcourse⟩ := op.executions_of_passed h
    rw [hexecutions]
    exact hcourse.classified
  refine ⟨⟨?_, ?_⟩, fun h => ⟨op.exists_first h, hpassed h⟩⟩
  · rintro ⟨service, cause, hending⟩
    cases hchecked : (g.drive.run world w).1 with
    | error cause => exact ⟨cause, rfl⟩
    | ok _ => exact (Cause.not_unavailable (((hpassed hchecked).error_iff _).mp hending)).elim
  · rintro ⟨cause, hfailed⟩
    refine ⟨g.service, cause, ?_⟩
    rw [op.call_eq g, Gate.run_failed hfailed]

/-- A checkpoint is applied, and the machine that is asked for then cannot be read. -/
theorem errors_classified_reread :
    let again : Outcome := { records := [⟨[("Id", .bool true)]⟩], errorText := "stale" }
    (Task.run Rehearsal.world ((applyCheckpoint .nil .nil).call default)
      { executions := [.finished {}, .finished again] }).1 =
        .error (.materialization "Id" "guid" "bool true") := by
  intro again
  obtain ⟨-, h⟩ := (errors_classified (applyCheckpoint .nil .nil) default Rehearsal.world
    { executions := [.finished {}, .finished again] }).2 rfl
  exact (h.materialization ..).mpr (.inr ⟨_, again, rfl, trivial, _, rfl, rfl⟩)

end Operation

end GuestControl
