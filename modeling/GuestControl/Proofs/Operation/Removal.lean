import GuestControl.Proofs.Operation.Course
import GuestControl.Rehearsal

/-!
# When a machine counts as removed

The record that a removal returns may say that the machine is deleted. The shell has
several spellings for that, and whatever else the member `IsDeleted` holds does not
say so. Then the machine is asked for again under the same slot, and it is removed if
nothing comes back, whatever errors come with that.
-/

namespace GuestControl

open Manager
open Exchange (underSlot)
open Service (Gate)

inductive Value.Affirms : Value → Prop
  | bool : Affirms (.bool true)
  | int : Affirms (.int 1)
  | uint : Affirms (.uint 1)
  | string : Text.sameLetters s "true" = true → Affirms (.string s)

theorem Value.toBool_iff {v : Value} : v.toBool = .ok true ↔ v.Affirms := by
  constructor
  · intro h
    cases v with
    | bool b =>
      cases h
      exact .bool
    | int i | uint n =>
      simp only [toBool] at h
      split at h
      · cases h
      · split at h
        · rename_i hone
          subst hone
          constructor
        · cases h
    | string s =>
      simp only [toBool] at h
      split at h
      · exact .string ‹_›
      · split at h
        · cases h
        · cases h
    | _ => cases h
  · rintro (_ | _ | _ | hs)
    · rfl
    · rfl
    · rfl
    · simp [toBool, hs]

def Outcome.ReportsDeleted (o : Outcome) : Prop :=
  ∃ r v, o.records.head? = some r ∧ r.get? "IsDeleted" = some v ∧ v.Affirms

theorem Manager.reportsDeleted_iff {o : Outcome} :
    reportsDeleted o = true ↔ o.ReportsDeleted := by
  unfold reportsDeleted Outcome.ReportsDeleted Outcome.first?
  cases o.records.head? with
  | none => simp
  | some r =>
    simp only [Option.bind_some, Option.some.injEq, exists_and_left, exists_eq_left',
      Member.isDeleted]
    cases r.get? "IsDeleted" with
    | none => simp
    | some v =>
      simp only [Option.some.injEq, exists_eq_left', ← Value.toBool_iff]
      cases v.toBool with
      | _ => simp [Except.toOption]

namespace Operation

/-- What comes of a removal whose first pipeline came to `e`: the exchanges that follow
under the slot, and the ending. -/
structure Removal (id : Guid) (e : Execution) (more : List Exchange) (ending : Ending Answer) :
    Prop where
  failed : ∀ x, e = .failed x → more = [] ∧ ending =
    .error (.operationFailed "remove virtual machine" (some id) x.message unexpectedCode)
  crashed : ∀ report, e = .crashed report → more = [] ∧ ending = .crashed report
  text : ∀ o, e = .finished o → o.errorText ≠ "" → more = [] ∧ ending =
    .error (.operationFailed "remove virtual machine" (some id) o.errorText
      (if o.errorCode = 0 then unexpectedCode else o.errorCode))
  flagged : ∀ o, e = .finished o → o.errorText = "" → o.ReportsDeleted →
    more = [] ∧ ending = .value (.verdict true)
  /-- The machine is asked for again; only the number of records counts. -/
  unflagged : ∀ o, e = .finished o → o.errorText = "" → ¬ o.ReportsDeleted →
    ∃ e' : Execution, more = [⟨.execute ⟨[⟨"Get-VM", [("Id", .guid id)]⟩]⟩ .separate, e'⟩] ∧
      (ending = .value (.verdict true) ↔ ∃ found, e' = .finished found ∧ found.records = []) ∧
      (ending = .value (.verdict false) ↔ ∃ found, e' = .finished found ∧ found.records ≠ []) ∧
      ∀ error, ending = .error error ↔ ∃ x, e' = .failed x ∧
        error = .operationFailed "remove virtual machine" (some id) x.message unexpectedCode

variable {id : Guid} {o : Outcome} {xs : List Exchange} {ending : Ending Answer}

theorem judged_found (e : Execution) :
    let ending := (remove id).judged (fun found => .ok (.verdict found.records.isEmpty)) e
    (ending = .value (.verdict true) ↔ ∃ found, e = .finished found ∧ found.records = []) ∧
      (ending = .value (.verdict false) ↔ ∃ found, e = .finished found ∧ found.records ≠ []) ∧
      ∀ error, ending = .error error ↔ ∃ x, e = .failed x ∧
        error = .operationFailed "remove virtual machine" (some id) x.message unexpectedCode := by
  refine ⟨by simp [judged_eq_value], by simp [judged_eq_value], fun error => ?_⟩
  cases e with
  | failed x => simp [judged, unexecuted, Error.failed, first, firstChecked?, eq_comm]
  | _ => simp [judged, Ending.ofExcept]

theorem Course.removal (h : (remove id).Course xs ending) :
    ∃ (e : Execution) (more : List Exchange),
      xs = ⟨.execute (removePipeline id) .piped, e⟩ :: more ∧ Removal id e more ending := by
  obtain ⟨e, more, hxs, hstops, hgoes⟩ := h.split
  refine ⟨e, more, hxs, ?_, ?_, ?_, ?_, ?_⟩
  · rintro x rfl
    exact hstops _ rfl
  · rintro report rfl
    exact hstops _ rfl
  · rintro o rfl htext
    exact hstops _ (stops?_of_text rfl htext)
  · rintro o rfl htext hflag
    have hfollows := hgoes o rfl (stops?_of_no_text htext)
    rw [sequel, if_pos (reportsDeleted_iff.mpr hflag)] at hfollows
    cases hfollows
    exact ⟨rfl, rfl⟩
  · rintro o rfl htext hflag
    have hfollows := hgoes o rfl (stops?_of_no_text htext)
    rw [sequel, if_neg (fun h => hflag (reportsDeleted_iff.mp h))] at hfollows
    cases hfollows
    exact ⟨_, rfl, judged_found _⟩

/-- A machine is removed under its slot. The removal fails with an error of its first
pipeline; else it is confirmed by the flag of the first record, or else by a second
look that finds nothing. -/
theorem removal_confirmed {σ : Type} {id : Guid} {g : Gate} {world : Task.World σ} {w : σ}
    (hpassed : (g.drive.run world w).1 = .ok ()) :
    ∃ (e : Execution) (more : List Exchange),
      Task.trace world ((remove id).call g) w = g.drive.trace world w ++
        underSlot (some id) (⟨.execute (removePipeline id) .piped, e⟩ :: more) ∧
      Removal id e more (Task.run world ((remove id).call g) w).1 := by
  obtain ⟨xs, htrace, hcourse⟩ := (remove id).course_of_passed hpassed
  obtain ⟨e, more, rfl, hremoval⟩ := hcourse.removal
  exact ⟨e, more, htrace, hremoval⟩

/-- The flag of a record that is no machine cannot be read, and the second look reports
an error. The machine is gone. -/
theorem removal_confirmed_unsure :
    let r : Record := ⟨[("Id", .bool true), ("IsDeleted", .string "yes")]⟩
    let w : Rehearsal :=
      { executions := [.finished { records := [r] }, .finished { errorText := "not found" }] }
    ((default : Gate).drive.run Rehearsal.world w).1 = .ok () ∧
      (Task.run Rehearsal.world ((remove .nil).call default) w).1 = .value (.verdict true) := by
  intro r w
  have hpassed : ((default : Gate).drive.run Rehearsal.world w).1 = .ok () := rfl
  obtain ⟨e, more, htrace, hremoval⟩ := @removal_confirmed _ .nil _ _ _ hpassed
  have hexecutions := congrArg (List.filterMap Exchange.execution?) htrace
  obtain ⟨he, hmore⟩ := List.cons.inj hexecutions
  have hflag : ¬ Outcome.ReportsDeleted { records := [r] } := by
    rintro ⟨_, v, hr, hget, hv⟩
    cases hr
    cases hget
    cases hv with
    | string hs => exact absurd hs (by decide)
  obtain ⟨e', rfl, hyes, -⟩ := hremoval.unflagged _ (Prod.mk.inj he).2.symm rfl hflag
  obtain ⟨he', -⟩ := List.cons.inj hmore
  exact ⟨hpassed, hyes.mpr ⟨_, (Prod.mk.inj he').2.symm, rfl⟩⟩

end Operation

end GuestControl
