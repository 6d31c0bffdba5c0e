import GuestControl.Proofs.Operation.Course
import GuestControl.Proofs.Record.Reading
import GuestControl.Rehearsal
import Mathlib.Data.List.Nodup

/-!
# When a change of state has succeeded

Seven operations aim at a state: they are confirmed by the first record that the
shell returns, if its member `State` names or numbers that state. A name and a number
each stand in one row of the table of states.
-/

namespace GuestControl

open Manager
open Service (Gate)

-- ---------------------------------------------------------------------------
-- The table of states
-- ---------------------------------------------------------------------------

theorem find?_key {ρ κ : Type} [BEq κ] [LawfulBEq κ] {key : ρ → κ} {rows : List ρ} {k : κ}
    {row : ρ} (h : (rows.map key).Nodup) :
    rows.find? (fun row => key row == k) = some row ↔ row ∈ rows ∧ key row = k := by
  constructor
  · intro hfind
    exact ⟨List.mem_of_find?_eq_some hfind, eq_of_beq (List.find?_some hfind :)⟩
  · rintro ⟨hmem, rfl⟩
    obtain ⟨row', hfind⟩ : ∃ row', rows.find? (fun row' => key row' == key row) = some row' :=
      Option.isSome_iff_exists.mp (List.find?_isSome.mpr ⟨row, hmem, beq_self_eq_true _⟩)
    have hkey : key row' = key row := eq_of_beq (List.find?_some hfind :)
    rw [hfind, List.inj_on_of_nodup_map h (List.mem_of_find?_eq_some hfind) hmem hkey]

namespace Machine.State

def letters (name : String) : List Char := name.toList.map Text.lowerChar

theorem names_nodup : (table.map fun row => letters row.1).Nodup := by decide +kernel

theorem codes_nodup : (table.map fun row => row.2.1).Nodup := by decide

variable {target : State}

theorem lookUp_eq {found : Option (String × Int × State)} {P : String × Int × State → Prop}
    (hknown : target ≠ .unknown) (hfound : ∀ row, found = some row ↔ row ∈ table ∧ P row) :
    found.elim .unknown (·.2.2) = target ↔ ∃ row ∈ table, P row ∧ row.2.2 = target := by
  cases found with
  | none =>
    refine ⟨fun h => absurd h.symm hknown, fun ⟨row, hmem, hrow, _⟩ => ?_⟩
    cases (hfound row).mpr ⟨hmem, hrow⟩
  | some row =>
    obtain ⟨hmem, hrow⟩ := (hfound row).mp rfl
    refine ⟨fun h => ⟨row, hmem, hrow, h⟩, fun ⟨row', hmem', hrow', h⟩ => ?_⟩
    cases (hfound row').mpr ⟨hmem', hrow'⟩
    exact h

theorem ofName_eq (hknown : target ≠ .unknown) (s : String) : ofName s = target ↔
    ∃ row ∈ table, Text.sameLetters row.1 (Text.trim s) = true ∧ row.2.2 = target := by
  have hlookUp : ofName s =
      (table.find? fun row => Text.sameLetters row.1 (Text.trim s)).elim .unknown (·.2.2) := by
    unfold ofName
    cases table.find? fun row => Text.sameLetters row.1 (Text.trim s) with
    | _ => rfl
  rw [hlookUp]
  refine lookUp_eq hknown fun row => ?_
  simp only [Text.sameLetters, beq_iff_eq]
  exact find?_key names_nodup

theorem ofCode_eq (hknown : target ≠ .unknown) (code : Int) : ofCode code = target ↔
    ∃ row ∈ table, row.2.1 = code ∧ row.2.2 = target := by
  have hlookUp : ofCode code = (table.find? fun row => row.2.1 == code).elim .unknown (·.2.2) := by
    unfold ofCode
    cases table.find? fun row => row.2.1 == code with
    | _ => rfl
  rw [hlookUp]
  exact lookUp_eq hknown fun row => find?_key codes_nodup

-- ---------------------------------------------------------------------------
-- States that are aimed at
-- ---------------------------------------------------------------------------

def aims : List State := [running, paused, off, saved]

/-- The names that the shell may give to a state that is aimed at. -/
def names : State → List String
  | .running => ["Running"]
  | .paused => ["Paused"]
  | .off => ["Off"]
  | .saved => ["Saved", "FastSaved"]
  | _ => []

/-- The numbers that the shell may give to a state that is aimed at. -/
def codes : State → List Int
  | .running => [2]
  | .paused => [9]
  | .off => [3]
  | .saved => [6, 32779]
  | _ => []

inductive ReportedBy (target : State) : Value → Prop
  | name : called ∈ target.names → Text.sameLetters called (Text.trim s) = true →
      ReportedBy target (.string s)
  | int : i.toInt ∈ target.codes → ReportedBy target (.int i)
  | uint : (n.toNat : Int) ∈ target.codes → ReportedBy target (.uint n)

theorem known_of_aim (h : target ∈ aims) : target ≠ .unknown := by
  rintro rfl
  exact absurd h (by decide)

theorem names_eq : ∀ target ∈ aims,
    target.names = (table.filter (·.2.2 = target)).map (·.1) := by decide

theorem codes_eq : ∀ target ∈ aims,
    target.codes = (table.filter (·.2.2 = target)).map (·.2.1) := by decide

theorem ofName_iff (h : target ∈ aims) (s : String) : ofName s = target ↔
    ∃ called ∈ target.names, Text.sameLetters called (Text.trim s) = true := by
  rw [ofName_eq (known_of_aim h), names_eq target h]
  simp only [List.mem_map, List.mem_filter, decide_eq_true_eq]
  constructor
  · rintro ⟨row, hmem, hname, htarget⟩
    exact ⟨row.1, ⟨row, ⟨hmem, htarget⟩, rfl⟩, hname⟩
  · rintro ⟨_, ⟨row, ⟨hmem, htarget⟩, rfl⟩, hname⟩
    exact ⟨row, hmem, hname, htarget⟩

theorem ofCode_iff (h : target ∈ aims) (code : Int) :
    ofCode code = target ↔ code ∈ target.codes := by
  rw [ofCode_eq (known_of_aim h), codes_eq target h]
  simp only [List.mem_map, List.mem_filter, decide_eq_true_eq]
  constructor
  · rintro ⟨row, hmem, hcode, htarget⟩
    exact ⟨row, ⟨hmem, htarget⟩, hcode⟩
  · rintro ⟨row, ⟨hmem, htarget⟩, hcode⟩
    exact ⟨row, hmem, hcode, htarget⟩

theorem ofValue_word {v : Value} {i : Int} {state : State} (hi : v.signed? = some i)
    (hv : (v.toInt64.map fun w => ofCode w.toInt) = .ok state) : state = ofCode i := by
  cases hw : v.toInt64 with
  | error m =>
    rw [hw] at hv
    cases hv
  | ok w =>
    rw [hw] at hv
    rw [← Except.ok.inj hv, Option.some.inj (hi.symm.trans (Value.signed_of_toInt64 hw))]

theorem ofValue_iff {v : Value} {state : State} (h : target ∈ aims)
    (hv : ofValue v = .ok state) : state = target ↔ target.ReportedBy v := by
  cases v with
  | string s =>
    obtain rfl := Except.ok.inj hv
    rw [ofName_iff h]
    exact ⟨fun ⟨_, hmem, hs⟩ => .name hmem hs, fun | .name hmem hs => ⟨_, hmem, hs⟩⟩
  | int i =>
    rw [ofValue_word rfl hv, ofCode_iff h]
    exact ⟨.int, fun | .int hmem => hmem⟩
  | uint n =>
    rw [ofValue_word rfl hv, ofCode_iff h]
    exact ⟨.uint, fun | .uint hmem => hmem⟩
  | _ => cases hv

end Machine.State

def Record.Reports (r : Record) (target : Machine.State) : Prop :=
  ∃ v, r.get? "State" = some v ∧ target.ReportedBy v

theorem Machine.state_iff {r : Record} {m : Machine} {target : State} (h : target ∈ State.aims)
    (hread : schema.read r = .ok m) : m.state = target ↔ r.Reports target := by
  rcases (readFrom hread).state with ⟨hnone, hstate⟩ | ⟨v, hsome, hv⟩
  · rw [hstate]
    refine ⟨fun htarget => absurd htarget.symm (State.known_of_aim h), fun ⟨v, hget, hv⟩ => ?_⟩
    have hnull := Schema.given_eq_none.mp hnone v hget
    cases hv with
    | _ => cases hnull
  · rw [State.ofValue_iff h hv]
    have hget := (Schema.given_eq_some.mp hsome).1
    refine ⟨fun hv => ⟨v, hget, hv⟩, fun ⟨v', hget', hv'⟩ => ?_⟩
    rw [Option.some.inj (hget.symm.trans hget')]
    exact hv'

-- ---------------------------------------------------------------------------
-- Verdicts
-- ---------------------------------------------------------------------------

namespace Operation

def aim? : Operation → Option Machine.State
  | .start _ | .resume _ | .restart _ => some .running
  | .pause _ => some .paused
  | .stop _ .default | .stop _ .turnOff => some .off
  | .stop _ .save => some .saved
  | _ => none

variable {op : Operation} {target : Machine.State} {o : Outcome} {e : Execution}

theorem aim_mem (h : op.aim? = some target) : target ∈ Machine.State.aims := by
  cases op with
  | start _ | resume _ | restart _ | pause _ =>
    cases h
    decide
  | stop _ kind =>
    cases kind with
    | _ =>
      cases h
      decide
  | _ => cases h

theorem isChecked_of_aim (h : op.aim? = some target) : op.isChecked = true := by
  cases op with
  | start _ | resume _ | restart _ | pause _ | stop _ _ => rfl
  | _ => cases h

theorem sequel_of_aim (h : op.aim? = some target) (o : Outcome) :
    op.sequel o = .done ((reached target o).map .verdict) := by
  cases op with
  | start _ | resume _ | restart _ | pause _ =>
    cases h
    rfl
  | stop _ kind =>
    cases kind with
    | _ =>
      cases h
      rfl
  | _ => cases h

def concluded (op : Operation) (target : Machine.State) : Execution → Ending Answer
  | .failed x => .error (op.unexecuted x)
  | .crashed report => .crashed report
  | .finished o =>
    if o.hasError then .error (op.told o) else .ofExcept ((reached target o).map .verdict)

theorem Course.concluded {xs : List Exchange} {ending : Ending Answer} (h : op.Course xs ending)
    (haim : op.aim? = some target) : ∃ e, xs = [op.opening e] ∧ ending = op.concluded target e := by
  cases h with
  | @stopped e ending hstop =>
    refine ⟨e, rfl, ?_⟩
    cases e with
    | failed x => exact (Option.some.inj hstop).symm
    | crashed report => exact (Option.some.inj hstop).symm
    | finished o =>
      rw [stops?, isChecked_of_aim haim, Bool.true_and] at hstop
      split at hstop
      · rename_i herror
        rw [Operation.concluded, if_pos herror, ← Option.some.inj hstop]
      · cases hstop
  | @done o result hstop hsequel =>
    refine ⟨_, rfl, ?_⟩
    have herror := stops?_finished.mp hstop (isChecked_of_aim haim)
    rw [Operation.concluded, if_neg (Bool.eq_false_iff.mp herror),
      Sequel.done.inj ((sequel_of_aim haim o).symm.trans hsequel)]
  | query _ hsequel | settings _ hsequel =>
    cases (sequel_of_aim haim _).symm.trans hsequel

theorem concluded_eq_verdict {b : Bool} : op.concluded target e = .value (.verdict b) ↔
    ∃ o, e = .finished o ∧ o.errorText = "" ∧ reached target o = .ok b := by
  cases e with
  | failed x => simp [concluded]
  | crashed report => simp [concluded]
  | finished o =>
    have herror : o.errorText = "" ↔ o.hasError = false := by simp [Outcome.hasError]
    simp only [concluded, Execution.finished.injEq, exists_eq_left', herror]
    cases o.hasError with
    | true => simp
    | false =>
      cases reached target o with
      | error e => simp [Ending.ofExcept, Except.map]
      | ok b' => simp [Ending.ofExcept, Except.map]

theorem reached_iff {b : Bool} (h : target ∈ Machine.State.aims) : reached target o = .ok b ↔
    o.first? = none ∧ b = false ∨ ∃ r m, o.first? = some r ∧
      Machine.schema.read r = .ok m ∧ (b = true ↔ r.Reports target) := by
  unfold reached
  cases o.first? with
  | none => simp [eq_comm]
  | some r =>
    cases hread : Machine.schema.read r with
    | error e => simp [Except.map, hread]
    | ok m =>
      have hstate := Machine.state_iff h hread
      cases b with
      | _ => simp [Except.map, hread, hstate]

theorem concluded_congr {o' : Outcome} (htext : o'.errorText = o.errorText)
    (hcode : o'.errorCode = o.errorCode) (hfirst : o'.first? = o.first?) :
    op.concluded target (.finished o') = op.concluded target (.finished o) := by
  have hreached : reached target o' = reached target o := by rw [reached, hfirst, reached]
  have herror : o'.hasError = o.hasError := by rw [Outcome.hasError, htext, Outcome.hasError]
  rw [concluded, concluded, herror, hreached, told, htext, hcode, told]

/-- An operation that aims at a state runs one pipeline. It says yes exactly if there
is no error text and the first record can be read and reports the state; it says no
exactly if there is no error text and the first record, if there is one, can be read
and reports no or another state. The records after the first do not count. -/
theorem aim_confirmed {σ : Type} {op : Operation} {target : Machine.State} {g : Gate}
    {world : Task.World σ} {s : σ} (haim : op.aim? = some target)
    (hpassed : (g.drive.run world s).1 = .ok ()) :
    ∃ e, Task.executions world (op.call g) s = [((op.first.pipeline, op.first.mode), e)] ∧
      ((Task.run world (op.call g) s).1 = .value (.verdict true) ↔
        ∃ o r m, e = .finished o ∧ o.errorText = "" ∧ o.records.head? = some r ∧
          Machine.schema.read r = .ok m ∧ r.Reports target) ∧
      ((Task.run world (op.call g) s).1 = .value (.verdict false) ↔
        ∃ o, e = .finished o ∧ o.errorText = "" ∧ (o.records = [] ∨
          ∃ r m, o.records.head? = some r ∧ Machine.schema.read r = .ok m ∧
            ¬ r.Reports target)) ∧
      ∀ {τ : Type} (world' : Task.World τ) (s' : τ) (o o' : Outcome),
        (g.drive.run world' s').1 = .ok () → e = .finished o →
        (Task.executions world' (op.call g) s').map (·.2) = [.finished o'] →
        o'.errorText = o.errorText → o'.errorCode = o.errorCode →
        o'.records.head? = o.records.head? →
        (Task.run world' (op.call g) s').1 = (Task.run world (op.call g) s).1 := by
  have hconcluded {τ : Type} {world : Task.World τ} {s : τ}
      (hpassed : (g.drive.run world s).1 = .ok ()) :
      ∃ e, Task.executions world (op.call g) s = [((op.first.pipeline, op.first.mode), e)] ∧
        (Task.run world (op.call g) s).1 = op.concluded target e := by
    obtain ⟨xs, hexecutions, hcourse⟩ := op.executions_of_passed hpassed
    obtain ⟨e, rfl, hending⟩ := hcourse.concluded haim
    exact ⟨e, hexecutions, hending⟩
  obtain ⟨e, hexecutions, hending⟩ := hconcluded hpassed
  have hmem := aim_mem haim
  refine ⟨e, hexecutions, ?_, ?_, ?_⟩
  · rw [hending, concluded_eq_verdict]
    simp only [reached_iff hmem, Outcome.first?, Bool.true_eq_false, and_false, false_or,
      true_iff, exists_and_left]
  · rw [hending, concluded_eq_verdict]
    simp only [reached_iff hmem, Outcome.first?, List.head?_eq_none_iff, and_true,
      Bool.false_eq_true, false_iff]
  · intro τ world' s' o o' hpassed' he hes htext hcode hfirst
    obtain ⟨e', hexecutions', hending'⟩ := hconcluded hpassed'
    rw [hexecutions'] at hes
    obtain rfl : e' = .finished o' := List.head_eq_of_cons_eq hes
    rw [hending', hending, he, concluded_congr htext hcode hfirst]

/-- A machine is saved when its first record has the number of `FastSaved`, whatever
the second one says; it is not when the first record names it `SavedCritical`. -/
theorem aim_confirmed_fastSaved :
    let saved : Record := ⟨[("State", .uint 32779)]⟩
    let critical : Record := ⟨[("State", .string "savedcritical")]⟩
    let ending (rs : List Record) := (Task.run Rehearsal.world ((stop .nil .save).call default)
      { executions := [.finished { records := rs }] }).1
    ending [saved, critical] = .value (.verdict true) ∧
      ending [critical, saved] = .value (.verdict false) := by
  intro saved critical ending
  have haim : (stop .nil .save).aim? = some .saved := rfl
  have hpassed (rs : List Record) : ((default : Gate).drive.run Rehearsal.world
      { executions := [.finished { records := rs }] }).1 = .ok () := rfl
  constructor
  · obtain ⟨e, hexecutions, htrue, -⟩ := aim_confirmed haim (hpassed [saved, critical])
    have he := (Prod.mk.inj (List.head_eq_of_cons_eq hexecutions)).2
    exact htrue.mpr ⟨_, saved, _, he.symm, rfl, rfl, rfl, _, rfl, .uint (by decide)⟩
  · obtain ⟨e, hexecutions, -, hfalse, -⟩ := aim_confirmed haim (hpassed [critical, saved])
    have he := (Prod.mk.inj (List.head_eq_of_cons_eq hexecutions)).2
    refine hfalse.mpr ⟨_, he.symm, rfl, .inr ⟨critical, _, rfl, rfl, ?_⟩⟩
    rintro ⟨v, hget, hv⟩
    obtain rfl := Option.some.inj hget
    have hnames : ∀ called ∈ Machine.State.saved.names,
        Text.sameLetters called (Text.trim "savedcritical") = false := by decide
    cases hv with
    | name hmem hs => exact absurd hs (Bool.eq_false_iff.mp (hnames _ hmem))

end Operation

end GuestControl
