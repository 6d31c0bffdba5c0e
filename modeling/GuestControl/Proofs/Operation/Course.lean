import GuestControl.Proofs.Operation.Dialogue
import GuestControl.Proofs.Shell.FailClosed

/-!
# The course of an operation

All operations take the same course. After the readiness check a first pipeline is
run, under the slot of the machine that the operation is on, if it is on one. A
failure ends the operation; else its outcome is judged, or a second pipeline is run
first (`Sequel`). `Course` lists what can come of a passed check, with the exchanges
and the ending, and `course_of_passed` says that there is nothing else.
-/

namespace GuestControl

open Manager
open Exchange (underSlot)
open Service (Gate)

inductive Sequel where
  | done (result : Except Error Answer)
  | query (pipeline : Pipeline) (mode : Mode) (judge : Outcome → Except Error Answer)
  | settings (pipeline : Pipeline) (m : Machine)

namespace Operation

/-- The first pipeline, with the operation and the machine that a failure is told
of. The last three are not checked. -/
def first (op : Operation) : Checked :=
  op.firstChecked?.getD <|
    match op with
    | .listCheckpoints id => ⟨"get checkpoints", some id, checkpointsPipeline id, .piped⟩
    | .diskSize path =>
      ⟨"get vhd size", none,
        .build [.command Cmdlet.getDisk, .argument Parameter.path (.string path)], .piped⟩
    | _ => ⟨"get all virtual machines", none, .build [.command Cmdlet.getMachine], .separate⟩

def isChecked (op : Operation) : Bool := op.firstChecked?.isSome

def sequel : Operation → Outcome → Sequel
  | .listMachines, o => .done (.ok (.machines (Machine.schema.readAll o.records)))
  | .getMachine id, o =>
    .done <|
      match o.first? with
      | some r => (Machine.schema.read r).map .machine
      | none => .error (.notFound id unexpectedCode)
  | .listCheckpoints _, o => .done (.ok (.checkpoints (Checkpoint.schema.readAll o.records)))
  | .getHost, o =>
    .done <|
      match o.first? with
      | some r => (Host.schema.read r).map .host
      | none => .error (.failed "get host" none "no host object returned" unexpectedCode)
  | .diskSize _, o => .done ((Manager.sizeOf o).map .size)
  | .start _, o | .resume _, o | .restart _, o => .done ((reached .running o).map .verdict)
  | .stop _ kind, o => .done ((reached kind.target o).map .verdict)
  | .pause _, o => .done ((reached .paused o).map .verdict)
  | .remove id, o =>
    if reportsDeleted o then .done (.ok (.verdict true))
    else .query (machinePipeline id) .separate fun again => .ok (.verdict again.records.isEmpty)
  | .create c, o =>
    match o.first? with
    | none =>
      .done (.error (.failed "create virtual machine" none "no virtual machine object returned"
        unexpectedCode))
    | some r =>
      match Machine.schema.read r with
      | .ok m => .settings (settingsPipeline c r m) m
      | .error e => .done (.error e)
  | .takeCheckpoint _, o => .done ((hasTaken o).map .verdict)
  | .applyCheckpoint id checkpoint, _ =>
    .query (machinePipeline id) .separate fun o => (hasApplied checkpoint o).map .verdict
  | .removeCheckpoint id checkpoint, _ =>
    .query (checkpointsPipeline id) .piped fun o =>
      .ok (.verdict !o.records.any (identifies checkpoint))

theorem sequel_query {op : Operation} {o : Outcome} {p : Pipeline} {mode : Mode}
    {judge : Outcome → Except Error Answer} (h : op.sequel o = .query p mode judge) :
    (∃ id, op = .remove id ∧ reportsDeleted o = false ∧ p = machinePipeline id ∧
      mode = .separate ∧ judge = fun again => .ok (.verdict again.records.isEmpty)) ∨
    (∃ id checkpoint, op = .applyCheckpoint id checkpoint ∧ p = machinePipeline id ∧
      mode = .separate ∧ judge = fun o => (hasApplied checkpoint o).map .verdict) ∨
    ∃ id checkpoint, op = .removeCheckpoint id checkpoint ∧ p = checkpointsPipeline id ∧
      mode = .piped ∧ judge = fun o => .ok (.verdict !o.records.any (identifies checkpoint)) := by
  cases op with
  | remove id =>
    simp only [sequel] at h
    split at h
    · cases h
    · cases h
      exact .inl ⟨id, rfl, Bool.eq_false_iff.mpr ‹_›, rfl, rfl, rfl⟩
  | applyCheckpoint id checkpoint =>
    cases h
    exact .inr (.inl ⟨id, checkpoint, rfl, rfl, rfl, rfl⟩)
  | removeCheckpoint id checkpoint =>
    cases h
    exact .inr (.inr ⟨id, checkpoint, rfl, rfl, rfl, rfl⟩)
  | create c =>
    simp only [sequel] at h
    split at h
    · cases h
    · split at h
      · cases h
      · cases h
  | _ => cases h

theorem sequel_settings {op : Operation} {o : Outcome} {p : Pipeline} {m : Machine}
    (h : op.sequel o = .settings p m) : ∃ c r, op = .create c ∧ o.first? = some r ∧
      Machine.schema.read r = .ok m ∧ p = settingsPipeline c r m := by
  cases op with
  | create c =>
    simp only [sequel] at h
    split at h
    · cases h
    · split at h
      · cases h
        exact ⟨c, _, rfl, ‹_›, ‹_›, rfl⟩
      · cases h
  | remove id =>
    simp only [sequel] at h
    split at h
    · cases h
    · cases h
  | _ => cases h

/-- A pipeline that is run for an operation and of which only a failure to run it is an error. -/
def runFor (op : Operation) (p : Pipeline) (mode : Mode) : Call Outcome :=
  run op.first.operation op.first.resource p mode

def finish (op : Operation) : Sequel → Call Answer
  | .done result => .ofExcept result
  | .query p mode judge => do
    let o ← op.runFor p mode
    .ofExcept (judge o)
  | .settings p m => do
    (applySettings p).holding m.id
    .pure (.machine m)

def body (op : Operation) : Call Answer := do
  let o ←
    if op.isChecked then
      runChecked op.first.operation op.first.resource op.first.pipeline op.first.mode
    else op.runFor op.first.pipeline op.first.mode
  op.finish (op.sequel o)

def slotted (op : Operation) (c : Call Answer) : Call Answer :=
  match op.machine? with
  | some id => c.holding id
  | none => c

section
variable {α : Type} {op : Operation} {g : Gate} {id : Guid} {one : Call Outcome}
  {rest : Outcome → Call α} {f : α → Answer}

theorem map_unslotted (hslot : op.machine? = none)
    (hbody : op.body = one >>= fun o => op.finish (op.sequel o))
    (hrest : ∀ o, (rest o).map f = op.finish (op.sequel o)) :
    (g.ensureRunning >>= fun _ => one >>= rest : Call α).map f =
      (g.ensureRunning >>= fun _ => op.slotted op.body : Call Answer) := by
  refine (Call.map_bind _ _ _).trans (congrArg _ (funext fun _ => ?_))
  rw [slotted, hslot, hbody, Call.map_bind]
  exact congrArg _ (funext hrest)

theorem map_onMachine (hslot : op.machine? = some id)
    (hbody : op.body = one >>= fun o => op.finish (op.sequel o))
    (hrest : ∀ o, (rest o).map f = op.finish (op.sequel o)) :
    (onMachine g id (one >>= rest)).map f =
      (g.ensureRunning >>= fun _ => op.slotted op.body : Call Answer) := by
  refine (Call.map_bind _ _ _).trans (congrArg _ (funext fun _ => ?_))
  rw [slotted, hslot, hbody, Call.map_holding, Call.map_bind]
  exact congrArg _ (congrArg _ (funext hrest))

end

theorem call_eq (op : Operation) (g : Gate) :
    op.call g = (g.ensureRunning >>= fun _ => op.slotted op.body : Call Answer) := by
  cases op with
  | listMachines => exact map_unslotted rfl rfl fun o => rfl
  | getHost =>
    refine map_unslotted rfl rfl fun o => ?_
    simp only [sequel]
    cases o.first? with
    | some r => exact Call.map_ofExcept _ _
    | none => rfl
  | diskSize path => exact map_unslotted rfl rfl fun o => Call.map_ofExcept _ _
  | create c =>
    refine map_unslotted rfl rfl fun o => ?_
    simp only [sequel]
    cases o.first? with
    | none => rfl
    | some r =>
      dsimp only
      cases Machine.schema.read r with
      | error e => rfl
      | ok m =>
        exact Call.map_bind ((applySettings (settingsPipeline c r m)).holding m.id)
          (fun _ => .pure m) Answer.machine
  | getMachine id =>
    refine map_onMachine rfl rfl fun o => ?_
    simp only [sequel]
    cases o.first? with
    | some r => exact Call.map_ofExcept _ _
    | none => rfl
  | listCheckpoints id => exact map_onMachine rfl rfl fun o => rfl
  | start _ | stop _ _ | pause _ | resume _ | restart _ | takeCheckpoint _ =>
    exact map_onMachine rfl rfl fun o => Call.map_ofExcept _ _
  | remove id =>
    refine map_onMachine rfl rfl fun o => ?_
    simp only [sequel]
    cases reportsDeleted o with
    | true => rfl
    | false => exact Call.map_bind _ _ _
  | applyCheckpoint id checkpoint =>
    refine map_onMachine rfl rfl fun o => (Call.map_bind _ _ _).trans ?_
    exact congrArg _ (funext fun o => Call.map_ofExcept _ _)
  | removeCheckpoint id checkpoint =>
    exact map_onMachine rfl rfl fun o => Call.map_bind _ _ _

-- ---------------------------------------------------------------------------
-- Exchanges and endings
-- ---------------------------------------------------------------------------

def unexecuted (op : Operation) (x : ExecutorError) : Error :=
  .failed op.first.operation op.first.resource x.message unexpectedCode

def told (op : Operation) (o : Outcome) : Error :=
  .failed op.first.operation op.first.resource o.errorText o.errorCode

def stops? (op : Operation) : Execution → Option (Ending Answer)
  | .failed x => some (.error (op.unexecuted x))
  | .crashed report => some (.crashed report)
  | .finished o => if op.isChecked && o.hasError then some (.error (op.told o)) else none

theorem stops?_finished {op : Operation} {o : Outcome} : op.stops? (.finished o) = none ↔
    (op.isChecked = true → o.hasError = false) := by
  cases hchecked : op.isChecked with
  | false => simp [stops?, hchecked]
  | true =>
    cases herror : o.hasError with
    | false => simp [stops?, herror]
    | true => simp [stops?, hchecked, herror]

theorem stops?_of_text {op : Operation} {o : Outcome} (hchecked : op.isChecked = true)
    (h : o.errorText ≠ "") : op.stops? (.finished o) = some (.error (op.told o)) := by
  simp [stops?, hchecked, Outcome.hasError, h]

theorem stops?_of_no_text {op : Operation} {o : Outcome} (h : o.errorText = "") :
    op.stops? (.finished o) = none := by
  simp [stops?, Outcome.hasError, h]

theorem stops?_checked {op : Operation} {o : Outcome} (hchecked : op.isChecked = true) :
    op.stops? (.finished o) = none ↔ o.errorText = "" := by
  simp [stops?_finished, hchecked, Outcome.hasError]

theorem stops?_ne_value {op : Operation} {e : Execution} {a : Answer} :
    op.stops? e ≠ some (.value a) := by
  cases e with
  | finished o => simp [stops?]
  | _ => nofun

def judged (op : Operation) (judge : Outcome → Except Error Answer) : Execution → Ending Answer
  | .failed x => .error (op.unexecuted x)
  | .crashed report => .crashed report
  | .finished o => .ofExcept (judge o)

theorem judged_eq_value {op : Operation} {judge : Outcome → Except Error Answer} {e : Execution}
    {a : Answer} : op.judged judge e = .value a ↔ ∃ o, e = .finished o ∧ judge o = .ok a := by
  cases e with
  | finished o =>
    cases hjudge : judge o with
    | _ => simp [judged, Ending.ofExcept, hjudge]
  | _ => simp [judged]

def settled (m : Machine) : Execution → Ending Answer
  | .failed _ | .finished _ => .value (.machine m)
  | .crashed report => .crashed report

def opening (op : Operation) (e : Execution) : Exchange :=
  ⟨.execute op.first.pipeline op.first.mode, e⟩

/-- What an operation asks and is told once the check has passed, apart from the
slot of the machine that it is on, and how it ends. -/
inductive Course (op : Operation) : List Exchange → Ending Answer → Prop
  | stopped : op.stops? e = some ending → Course op [op.opening e] ending
  | done : op.stops? (.finished o) = none → op.sequel o = .done result →
      Course op [op.opening (.finished o)] (.ofExcept result)
  | query : op.stops? (.finished o) = none → op.sequel o = .query p mode judge →
      Course op [op.opening (.finished o), ⟨.execute p mode, e⟩] (op.judged judge e)
  | settings : op.stops? (.finished o) = none → op.sequel o = .settings p m →
      Course op (op.opening (.finished o) :: underSlot (some m.id) [⟨.execute p .separate, e⟩])
        (settled m e)

inductive Follows (op : Operation) : Sequel → List Exchange → Ending Answer → Prop
  | done : Follows op (.done result) [] (.ofExcept result)
  | query : Follows op (.query p mode judge) [⟨.execute p mode, e⟩] (op.judged judge e)
  | settings : Follows op (.settings p m) (underSlot (some m.id) [⟨.execute p .separate, e⟩])
      (settled m e)

theorem Course.split {op : Operation} {xs : List Exchange} {ending : Ending Answer}
    (h : op.Course xs ending) : ∃ e more, xs = op.opening e :: more ∧
      (∀ ending', op.stops? e = some ending' → more = [] ∧ ending = ending') ∧
      ∀ o, e = .finished o → op.stops? e = none → op.Follows (op.sequel o) more ending := by
  cases h with
  | stopped hstop =>
    refine ⟨_, [], rfl, fun ending' hstop' => ⟨rfl, ?_⟩, fun o _ hgoes => ?_⟩
    · exact Option.some.inj (hstop.symm.trans hstop')
    · cases hgoes.symm.trans hstop
  | done hgoes hsequel | query hgoes hsequel | settings hgoes hsequel =>
    refine ⟨_, _, rfl, fun ending' hstop => ?_, fun o ho _ => ?_⟩
    · cases hgoes.symm.trans hstop
    · cases ho
      rw [hsequel]
      constructor

section
variable {σ : Type} {world : Task.World σ} {op : Operation} {s : σ}

theorem body_eq_ask (op : Operation) : ∃ next : Execution → Call Answer,
    op.body = Task.ask (.execute op.first.pipeline op.first.mode) next ∧
      (∀ e ending, op.stops? e = some ending → next e = Task.done ending) ∧
      ∀ o, op.stops? (.finished o) = none → next (.finished o) = op.finish (op.sequel o) := by
  unfold body
  cases hchecked : op.isChecked with
  | false =>
    refine ⟨_, rfl, fun e ending h => ?_, fun o _ => rfl⟩
    cases e with
    | finished o => simp [stops?, hchecked] at h
    | failed x => exact congrArg Task.done (Option.some.inj h)
    | crashed report => exact congrArg Task.done (Option.some.inj h)
  | true =>
    refine ⟨_, rfl, fun e ending h => ?_, fun o h => ?_⟩
    · cases e with
      | finished o =>
        cases herror : o.hasError with
        | false => simp [stops?, herror] at h
        | true =>
          simp only [stops?, hchecked, herror, Bool.and_self, if_true, Option.some.injEq] at h
          subst h
          change Call.bind (if o.hasError then .fail _ else .pure o) _ = _
          rw [if_pos herror]
          rfl
      | failed x => exact congrArg Task.done (Option.some.inj h)
      | crashed report => exact congrArg Task.done (Option.some.inj h)
    · cases herror : o.hasError with
      | false =>
        change Call.bind (if o.hasError then .fail _ else .pure o) _ = _
        rw [if_neg (Bool.eq_false_iff.mp herror)]
        rfl
      | true => simp [stops?, hchecked, herror] at h

theorem finish_query (op : Operation) (p : Pipeline) (mode : Mode)
    (judge : Outcome → Except Error Answer) : op.finish (.query p mode judge) =
      Task.ask (.execute p mode) fun e => .done (op.judged judge e) := by
  refine congrArg (Task.ask (.execute p mode)) (funext fun e => ?_)
  cases e with
  | finished o => exact Call.ofExcept_eq (judge o)
  | failed x => rfl
  | crashed report => rfl

theorem finish_settings (op : Operation) (p : Pipeline) (m : Machine) :
    op.finish (.settings p m) = Task.ask (.enter m.id) fun _ => .ask (.execute p .separate) fun e =>
      .ask (.leave m.id) fun _ => .done (settled m e) := by
  refine congrArg (Task.ask (.enter m.id)) (funext fun _ => ?_)
  refine congrArg (Task.ask (.execute p .separate)) (funext fun e => ?_)
  cases e with
  | _ => rfl

theorem trace_holding (world : Task.World σ) (id : Guid) (c : Call Answer) (s : σ) :
    Task.trace world (c.holding id) s =
      underSlot (some id) (Task.trace world c (world (.enter id) s).2) := by
  refine congrArg (_ :: ·) ((Task.trace_bind world c _ _).trans ?_)
  rfl

theorem run_holding (world : Task.World σ) (id : Guid) (c : Call Answer) (s : σ) :
    (Task.run world (c.holding id) s).1 = (Task.run world c (world (.enter id) s).2).1 := by
  have hrest := Task.run_bind world c (fun ending => .ask (.leave id) fun _ => .done ending)
    (world (.enter id) s).2
  exact (congrArg Prod.fst hrest : _)

theorem course_body (op : Operation) (world : Task.World σ) (s : σ) :
    op.Course (Task.trace world op.body s) (Task.run world op.body s).1 := by
  obtain ⟨next, hbody, hstops, hgoes⟩ := op.body_eq_ask
  rw [hbody]
  simp only [Task.trace, Task.run]
  generalize (world (.execute op.first.pipeline op.first.mode) s).1 = e
  generalize (world (.execute op.first.pipeline op.first.mode) s).2 = s
  cases hstop : op.stops? e with
  | some ending =>
    rw [hstops e ending hstop]
    exact .stopped hstop
  | none =>
    cases e with
    | failed x => cases hstop
    | crashed report => cases hstop
    | finished o =>
      rw [hgoes o hstop]
      cases hsequel : op.sequel o with
      | done result =>
        rw [finish, Call.ofExcept_eq]
        exact .done hstop hsequel
      | query p mode judge =>
        rw [finish_query]
        exact .query hstop hsequel
      | settings p m =>
        rw [finish_settings]
        exact .settings hstop hsequel

theorem trace_slotted (op : Operation) (world : Task.World σ) (c : Call Answer) (s : σ) :
    ∃ s', Task.trace world (op.slotted c) s =
        underSlot op.machine? (Task.trace world c s') ∧
      (Task.run world (op.slotted c) s).1 = (Task.run world c s').1 := by
  unfold slotted
  cases op.machine? with
  | none => exact ⟨s, rfl, rfl⟩
  | some id => exact ⟨_, trace_holding world id c s, run_holding world id c s⟩

theorem course_of_passed (op : Operation) {g : Gate} (h : (g.drive.run world s).1 = .ok ()) :
    ∃ xs, Task.trace world (op.call g) s = g.drive.trace world s ++ underSlot op.machine? xs ∧
      op.Course xs (Task.run world (op.call g) s).1 := by
  obtain ⟨s', htrace, hrun⟩ := op.trace_slotted world op.body (g.drive.run world s).2
  rw [op.call_eq g, Gate.trace_passed h, Gate.run_passed h, htrace, hrun]
  exact ⟨_, rfl, op.course_body world s'⟩

theorem executions_of_passed (op : Operation) {g : Gate}
    (h : (g.drive.run world s).1 = .ok ()) :
    ∃ xs, Task.executions world (op.call g) s = xs.filterMap Exchange.execution? ∧
      op.Course xs (Task.run world (op.call g) s).1 := by
  obtain ⟨xs, htrace, hcourse⟩ := op.course_of_passed h
  have hcheck : (g.drive.trace world s).filterMap Exchange.execution? = [] :=
    g.executions_drive world s
  refine ⟨xs, ?_, hcourse⟩
  unfold Task.executions
  rw [htrace, List.filterMap_append, hcheck, List.nil_append,
    Exchange.executions_underSlot]

end

-- ---------------------------------------------------------------------------
-- Endings by results
-- ---------------------------------------------------------------------------

/-- Once the check has passed, the operation may end so if its pipelines come to this. -/
def Ends (op : Operation) (es : List Execution) (ending : Ending Answer) : Prop :=
  ∃ (σ : Type) (g : Gate) (world : Task.World σ) (w : σ), (g.drive.run world w).1 = .ok () ∧
    (Task.executions world (op.call g) w).map (·.2) = es ∧
    (Task.run world (op.call g) w).1 = ending

section
variable {op : Operation} {es : List Execution} {o : Outcome} {e : Execution}
  {ending : Ending Answer}

theorem Ends.exists_course (h : op.Ends es ending) :
    ∃ xs, op.Course xs ending ∧ (xs.filterMap Exchange.execution?).map (·.2) = es := by
  obtain ⟨σ, g, world, w, hpassed, rfl, rfl⟩ := h
  obtain ⟨xs, hexecutions, hcourse⟩ := op.executions_of_passed hpassed
  exact ⟨xs, hcourse, by rw [hexecutions]⟩

theorem Ends.of_one (h : op.Ends [e] ending) : op.stops? e = some ending ∨
    ∃ o result, e = .finished o ∧ op.sequel o = .done result ∧ ending = .ofExcept result := by
  obtain ⟨xs, hcourse, hxs⟩ := h.exists_course
  cases hcourse with
  | stopped hstop =>
    cases hxs
    exact .inl hstop
  | done _ hsequel =>
    cases hxs
    exact .inr ⟨_, _, rfl, hsequel, rfl⟩
  | query | settings => cases hxs

theorem Ends.of_two (h : op.Ends [.finished o, e] ending) :
    (∃ p mode judge, op.sequel o = .query p mode judge ∧ ending = op.judged judge e) ∨
    ∃ p m, op.sequel o = .settings p m ∧ ending = settled m e := by
  obtain ⟨xs, hcourse, hxs⟩ := h.exists_course
  cases hcourse with
  | stopped | done => cases hxs
  | query _ hsequel =>
    cases hxs
    exact .inl ⟨_, _, _, hsequel, rfl⟩
  | settings _ hsequel =>
    cases hxs
    exact .inr ⟨_, _, hsequel, rfl⟩

theorem Ends.of_done {result : Except Error Answer} (h : op.Ends [.finished o] ending)
    (hgoes : op.stops? (.finished o) = none) (hsequel : op.sequel o = .done result) :
    ending = .ofExcept result := by
  obtain hstop | ⟨_, _, ho, hsequel', rfl⟩ := h.of_one
  · cases hgoes.symm.trans hstop
  · cases ho
    cases hsequel.symm.trans hsequel'
    rfl

theorem Ends.of_query {p : Pipeline} {mode : Mode} {judge : Outcome → Except Error Answer}
    (h : op.Ends [.finished o, e] ending) (hsequel : op.sequel o = .query p mode judge) :
    ending = op.judged judge e := by
  obtain ⟨_, _, _, hsequel', rfl⟩ | ⟨_, _, hsequel', -⟩ := h.of_two
  · cases hsequel.symm.trans hsequel'
    rfl
  · cases hsequel.symm.trans hsequel'

end

-- ---------------------------------------------------------------------------
-- Endings that there are
-- ---------------------------------------------------------------------------

def queue : Task.World (List Execution)
  | .execute .., e :: es => (e, es)
  | q, es => (q.usual, es)

variable {op : Operation} {es : List Execution} {o : Outcome} {e : Execution}

theorem executions_queue (op : Operation) (es : List Execution) :
    Task.executions queue (op.call default) es = Task.executions queue op.body es := by
  have hslot : Task.trace queue (op.slotted op.body) es =
      underSlot op.machine? (Task.trace queue op.body es) := by
    unfold slotted
    cases op.machine? with
    | none => rfl
    | some id => exact trace_holding queue id op.body es
  -- the check sees the service running and leaves the list as it is
  have hpassed : ((default : Gate).drive.run queue es) = (.ok (), es) := rfl
  have hcheck : ((default : Gate).drive.trace queue es).filterMap Exchange.execution? = [] := rfl
  unfold Task.executions
  rw [op.call_eq, Gate.trace_passed (congrArg Prod.fst hpassed), List.filterMap_append, hcheck,
    List.nil_append, hpassed, hslot, Exchange.executions_underSlot]

theorem exists_ends (h : (Task.executions queue op.body es).map (·.2) = es) :
    ∃ ending, op.Ends es ending :=
  ⟨_, _, default, queue, es, rfl, by rw [executions_queue, h], rfl⟩

theorem exists_ends_done {result : Except Error Answer} (hgoes : op.stops? (.finished o) = none)
    (hsequel : op.sequel o = .done result) : ∃ ending, op.Ends [.finished o] ending := by
  obtain ⟨next, hbody, -, hnext⟩ := op.body_eq_ask
  have hrest : next (.finished o) = .done (.ofExcept result) := by
    rw [hnext o hgoes, hsequel]
    exact Call.ofExcept_eq result
  refine exists_ends ?_
  rw [hbody]
  simp only [Task.executions, Task.trace, queue, hrest]
  rfl

theorem exists_ends_query {p : Pipeline} {mode : Mode} {judge : Outcome → Except Error Answer}
    (hgoes : op.stops? (.finished o) = none) (hsequel : op.sequel o = .query p mode judge) :
    ∃ ending, op.Ends [.finished o, e] ending := by
  obtain ⟨next, hbody, -, hnext⟩ := op.body_eq_ask
  have hrest := (hnext o hgoes).trans (hsequel ▸ finish_query op p mode judge)
  refine exists_ends ?_
  rw [hbody]
  simp only [Task.executions, Task.trace, queue, hrest]
  rfl

end Operation

end GuestControl
