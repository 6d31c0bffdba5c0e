import GuestControl.Proofs.Operation.Failures
import GuestControl.Proofs.Record.Reading

/-!
# What checkpoint operations and queries say

A checkpoint is applied or removed, and then a second pipeline is run, the same that a
query runs. The verdict on what it comes to is compared here with the answer of the
query. A restored checkpoint is the parent that the query reports. A removed checkpoint
is looked for among the identifiers of all records, so that a record which the query
has to skip still shows that it is there.
-/

namespace GuestControl

open Manager
open Service (Gate)

-- ---------------------------------------------------------------------------
-- Identifiers
-- ---------------------------------------------------------------------------

def Record.Identifies (r : Record) (id : Guid) : Prop :=
  ∃ v, r.get? "Id" = some v ∧ v.toGuid = .ok id

theorem Manager.identifies_iff {id : Guid} {r : Record} :
    identifies id r = true ↔ r.Identifies id := by
  unfold identifies Record.Identifies Member.id
  cases r.get? "Id" with
  | none => simp
  | some v =>
    cases hv : v.toGuid with
    | _ => simp [hv, Except.toOption]

/-- The nil identifier means that there is none. -/
theorem Value.ne_nil_of_toOptionalGuid {v : Value} {id? : Option Guid}
    (h : v.toOptionalGuid = .ok id?) : id? ≠ some .nil := by
  rintro rfl
  cases hv : v.toGuid with
  | error m => simp [toOptionalGuid, hv, Except.map] at h
  | ok id =>
    simp only [toOptionalGuid, hv, Except.map, Except.ok.injEq] at h
    split at h
    · cases h
    · cases h
      exact absurd (by decide : Guid.nil.isNil = true) ‹_›

theorem Machine.parent_ne_nil {r : Record} {m : Machine} (h : schema.read r = .ok m) :
    m.parentCheckpointId ≠ some .nil := by
  rcases (readFrom h).parentCheckpointId with ⟨-, hnone⟩ | ⟨v, -, hv⟩
  · simp [hnone]
  · exact Value.ne_nil_of_toOptionalGuid hv

/-- The identifier of a checkpoint is that of its record, unless it is nil: then the
record may have none. -/
theorem Checkpoint.id_iff {r : Record} {c : Checkpoint} {id : Guid} (hid : id ≠ .nil)
    (h : schema.read r = .ok c) : c.id = id ↔ r.Identifies id := by
  constructor
  · rintro rfl
    rcases (readFrom h).id with ⟨-, hnil⟩ | ⟨v, hgiven, hv⟩
    · exact absurd hnil hid
    · exact ⟨v, (Schema.given_eq_some.mp hgiven).1, hv⟩
  · rintro ⟨v, hget, hv⟩
    rcases (readFrom h).id with ⟨hnone, -⟩ | ⟨v', hgiven, hv'⟩
    · have hnull := Schema.given_eq_none.mp hnone v hget
      cases v with
      | null =>
        cases hv
        exact absurd rfl hid
      | _ => cases hnull
    · cases hget.symm.trans (Schema.given_eq_some.mp hgiven).1
      exact Except.ok.inj (hv'.symm.trans hv)

theorem Checkpoint.shown_iff {rs : List Record} {id : Guid} (hid : id ≠ .nil) :
    id ∈ (schema.readAll rs).map (·.id) ↔
      ∃ r ∈ rs, (∃ c, schema.read r = .ok c) ∧ r.Identifies id := by
  simp only [List.mem_map, Schema.mem_readAll]
  constructor
  · rintro ⟨c, ⟨r, hr, hread⟩, hc⟩
    exact ⟨r, hr, ⟨c, hread⟩, (id_iff hid hread).mp hc⟩
  · rintro ⟨r, hr, ⟨c, hread⟩, hr'⟩
    exact ⟨c, ⟨r, hr, hread⟩, (id_iff hid hread).mpr hr'⟩

namespace Operation

variable {id checkpoint : Guid} {o answer : Outcome} {ending : Ending Answer}

-- ---------------------------------------------------------------------------
-- Verdicts and queries
-- ---------------------------------------------------------------------------

theorem applied_ends (h : (applyCheckpoint id checkpoint).Ends
    [.finished o, .finished answer] ending) :
    ending = .ofExcept ((hasApplied checkpoint answer).map .verdict) := h.of_query rfl

theorem removed_ends (h : (removeCheckpoint id checkpoint).Ends
    [.finished o, .finished answer] ending) :
    ending = .value (.verdict !answer.records.any (identifies checkpoint)) := h.of_query rfl

theorem found_ends (htext : answer.errorText = "")
    (h : (getMachine id).Ends [.finished answer] ending) :
    ending = .ofExcept (match answer.first? with
      | some r => (Machine.schema.read r).map .machine
      | none => .error (.notFound id unexpectedCode)) := h.of_done (stops?_of_no_text htext) rfl

theorem listed_ends (h : (listCheckpoints id).Ends [.finished answer] ending) :
    ending = .value (.checkpoints (Checkpoint.schema.readAll answer.records)) :=
  h.of_done (stops?_finished.mpr nofun) rfl

/-- A verdict on the restored checkpoint says what the query for the machine shows. -/
structure AppliedAgrees (id checkpoint : Guid) (applied found : Ending Answer) : Prop where
  yes : applied = .value (.verdict true) ↔
    ∃ m, found = .value (.machine m) ∧ m.parentCheckpointId = some checkpoint
  no : applied = .value (.verdict false) ↔ found = .error (.notFound id unexpectedCode) ∨
    ∃ m, found = .value (.machine m) ∧ m.parentCheckpointId ≠ some checkpoint
  unreadable : ∀ e : Error, e.isMaterialization = true →
    (applied = .error e ↔ found = .error e)
  never_nil : checkpoint = .nil → applied ≠ .value (.verdict true)

theorem applied_agrees {applied found : Ending Answer} (htext : answer.errorText = "")
    (happlied : (applyCheckpoint id checkpoint).Ends [.finished o, .finished answer] applied)
    (hfound : (getMachine id).Ends [.finished answer] found) :
    AppliedAgrees id checkpoint applied found := by
  have happlied := applied_ends happlied
  have hfound := found_ends htext hfound
  unfold hasApplied at happlied
  cases hfirst : answer.first? with
  | none =>
    simp only [hfirst, Except.map, Ending.ofExcept] at happlied hfound
    subst happlied hfound
    refine ⟨by simp, by simp, ?_, by simp⟩
    rintro _ hmaterialization
    simp only [reduceCtorEq, Ending.error.injEq, false_iff]
    rintro rfl
    cases hmaterialization
  | some r =>
    cases hread : Machine.schema.read r with
    | error e =>
      simp only [hfirst, hread, Except.map, Ending.ofExcept] at happlied hfound
      subst happlied hfound
      obtain ⟨f, -, m, rfl⟩ := Schema.read_error hread
      exact ⟨by simp, by simp [Error.ofMismatch], fun _ _ => Iff.rfl, by simp⟩
    | ok m =>
      simp only [hfirst, hread, Except.map, Ending.ofExcept] at happlied hfound
      subst happlied hfound
      refine ⟨by simp, by simp, by simp, ?_⟩
      rintro rfl
      simp [Machine.parent_ne_nil hread]

/-- A verdict on the removed checkpoint says what the query for checkpoints shows, and
what it has to skip. -/
structure RemovedAgrees (checkpoint : Guid) (records : List Record)
    (removed listed : Ending Answer) : Prop where
  no : removed = .value (.verdict false) ↔ ∃ r ∈ records, r.Identifies checkpoint
  shown : ∃ cs, listed = .value (.checkpoints cs) ∧
    (checkpoint ∈ cs.map (·.id) → removed = .value (.verdict false)) ∧
    ((∀ r ∈ records, ∃ c, Checkpoint.schema.read r = .ok c) →
      (removed = .value (.verdict false) ↔ checkpoint ∈ cs.map (·.id)))
  hidden : ∀ before r after e, records = before ++ r :: after → r.Identifies checkpoint →
    Checkpoint.schema.read r = .error e →
    listed = .value (.checkpoints (Checkpoint.schema.readAll (before ++ after))) ∧
      removed ≠ .value (.verdict true)

theorem removed_agrees {removed listed : Ending Answer} (hid : checkpoint ≠ .nil)
    (hremoved : (removeCheckpoint id checkpoint).Ends [.finished o, .finished answer] removed)
    (hlisted : (listCheckpoints id).Ends [.finished answer] listed) :
    RemovedAgrees checkpoint answer.records removed listed := by
  obtain rfl := removed_ends hremoved
  obtain rfl := listed_ends hlisted
  have hno : Ending.value (Answer.verdict !answer.records.any (identifies checkpoint)) =
      .value (.verdict false) ↔ ∃ r ∈ answer.records, r.Identifies checkpoint := by
    simp [identifies_iff]
  have hshown := @Checkpoint.shown_iff answer.records _ hid
  refine ⟨hno, ⟨_, rfl, ?_, ?_⟩, ?_⟩
  · intro hmem
    obtain ⟨r, hr, -, hr'⟩ := hshown.mp hmem
    exact hno.mpr ⟨r, hr, hr'⟩
  · intro hreads
    rw [hno, hshown]
    constructor
    · rintro ⟨r, hr, hr'⟩
      exact ⟨r, hr, hreads r hr, hr'⟩
    · rintro ⟨r, hr, -, hr'⟩
      exact ⟨r, hr, hr'⟩
  · intro before r after e hrecords hr hread
    rw [hrecords, Schema.readAll_skip hread, ← hrecords]
    have hremoved := hno.mpr ⟨r, by simp [hrecords], hr⟩
    exact ⟨rfl, by simp [hremoved]⟩

/-- Let the second pipeline of a checkpoint operation come to an answer without error
text. The verdict agrees with what a query says that comes to the same answer. -/
theorem checkpoint_verdicts_agree (id checkpoint : Guid) (o answer : Outcome)
    (htext : answer.errorText = "") :
    (∀ applied found,
      (applyCheckpoint id checkpoint).Ends [.finished o, .finished answer] applied →
      (getMachine id).Ends [.finished answer] found →
      AppliedAgrees id checkpoint applied found) ∧
    (∀ r m, Machine.schema.read r = .ok m → m.parentCheckpointId ≠ some .nil) ∧
    (checkpoint ≠ .nil → ∀ removed listed,
      (removeCheckpoint id checkpoint).Ends [.finished o, .finished answer] removed →
      (listCheckpoints id).Ends [.finished answer] listed →
      RemovedAgrees checkpoint answer.records removed listed) ∧
    (o.errorText = "" →
      (∃ applied, (applyCheckpoint id checkpoint).Ends [.finished o, .finished answer] applied) ∧
      (∃ found, (getMachine id).Ends [.finished answer] found) ∧
      (∃ removed, (removeCheckpoint id checkpoint).Ends [.finished o, .finished answer] removed) ∧
      ∃ listed, (listCheckpoints id).Ends [.finished answer] listed) := by
  refine ⟨fun applied found happlied hfound => applied_agrees htext happlied hfound, ?_, ?_, ?_⟩
  · exact fun r m hread => Machine.parent_ne_nil hread
  · exact fun hid removed listed hremoved hlisted => removed_agrees hid hremoved hlisted
  · intro hclean
    exact ⟨exists_ends_query (stops?_of_no_text hclean) rfl,
      exists_ends_done (stops?_of_no_text htext) rfl,
      exists_ends_query (stops?_of_no_text hclean) rfl,
      exists_ends_done (stops?_of_no_text htext) rfl⟩

/-- A checkpoint whose name is a list is not in the listing, but it is not removed. It is
applied to the machine whose parent it is; where no machine is found it is not. -/
theorem checkpoint_verdicts_agree_hidden :
    let checkpoint : Guid := ⟨List.replicate 32 10, rfl⟩
    let r : Record :=
      ⟨[("Id", .string " {AAAAAAAA-aaaa-AAAA-aaaa-AAAAAAAAAAAA} "), ("Name", .list [])]⟩
    let child : Record := ⟨[("ParentCheckpointId", .guid checkpoint)]⟩
    let ending (op : Operation) (es : List Execution) :=
      (Task.run Rehearsal.world (op.call default) { executions := es }).1
    ending (listCheckpoints .nil) [.finished { records := [r] }] = .value (.checkpoints []) ∧
      ending (removeCheckpoint .nil checkpoint) [.finished {}, .finished { records := [r] }] =
        .value (.verdict false) ∧
      ending (applyCheckpoint .nil checkpoint) [.finished {}, .finished { records := [child] }] =
        .value (.verdict true) ∧
      (∃ m, ending (getMachine .nil) [.finished { records := [child] }] = .value (.machine m) ∧
        m.parentCheckpointId = some checkpoint) ∧
      ending (applyCheckpoint .nil checkpoint) [.finished {}, .finished {}] =
        .value (.verdict false) := by
  intro checkpoint r child ending
  have hends (op : Operation) (es : List Execution) (hes : (Task.executions Rehearsal.world
      (op.call default) { executions := es }).map (·.2) = es) : op.Ends es (ending op es) :=
    ⟨Rehearsal, default, Rehearsal.world, { executions := es }, rfl, hes, rfl⟩
  have hagrees (records : List Record) :=
    checkpoint_verdicts_agree .nil checkpoint {} { records := records } rfl
  have hremoved := (hagrees [r]).2.2.1 (by decide) _ _ (hends _ _ rfl) (hends _ _ rfl)
  have happlied := (hagrees [child]).1 _ _ (hends _ _ rfl) (hends _ _ rfl)
  have hnone := (hagrees []).1 _ _ (hends _ _ rfl) (hends _ _ rfl)
  have hr : r.Identifies checkpoint := ⟨_, rfl, rfl⟩
  have hfound : ∃ m, ending (getMachine .nil) [.finished { records := [child] }] =
      .value (.machine m) ∧ m.parentCheckpointId = some checkpoint := ⟨_, rfl, rfl⟩
  refine ⟨(hremoved.hidden [] r [] _ rfl hr rfl).1, hremoved.no.mpr ⟨r, List.mem_cons_self, hr⟩,
    happlied.yes.mpr hfound, hfound, hnone.no.mpr (.inl rfl)⟩

-- ---------------------------------------------------------------------------
-- What a removal goes by
-- ---------------------------------------------------------------------------

/-- A checkpoint counts as removed exactly if both pipelines are run, the first without
error text, and no record of the listing has its identifier. Error text of the listing
does not count. -/
theorem checkpoint_removed_iff {σ : Type} {id checkpoint : Guid} {g : Gate}
    {world : Task.World σ} {w : σ} (hpassed : (g.drive.run world w).1 = .ok ()) :
    (Task.run world ((removeCheckpoint id checkpoint).call g) w).1 = .value (.verdict true) ↔
      ∃ o listing, Task.executions world ((removeCheckpoint id checkpoint).call g) w =
        [((checkpointPipeline Cmdlet.removeCheckpoint checkpoint, .piped), .finished o),
          ((checkpointsPipeline id, .piped), .finished listing)] ∧
        o.errorText = "" ∧ ∀ r ∈ listing.records, ¬ r.Identifies checkpoint := by
  obtain ⟨xs, hexecutions, hcourse⟩ := (removeCheckpoint id checkpoint).executions_of_passed
    hpassed
  rw [hexecutions]
  generalize (Task.run world ((removeCheckpoint id checkpoint).call g) w).1 = ending at hcourse
  constructor
  · intro hending
    cases hcourse with
    | stopped hstop => exact absurd (hending ▸ hstop) stops?_ne_value
    | done _ hsequel | settings _ hsequel => cases hsequel
    | query hgoes hsequel =>
      cases hsequel
      obtain ⟨listing, rfl, hjudge⟩ := judged_eq_value.mp hending
      refine ⟨_, listing, rfl, (stops?_checked rfl).mp hgoes, ?_⟩
      simpa [identifies_iff, ← Bool.not_eq_true] using hjudge
  · rintro ⟨o, listing, hxs, htext, habsent⟩
    obtain ⟨e, more, rfl, -, hgoes⟩ := hcourse.split
    obtain ⟨he, hmore⟩ := List.cons.inj hxs
    have hfollows := hgoes o (Prod.mk.inj he).2 ((Prod.mk.inj he).2 ▸ stops?_of_no_text htext)
    cases hfollows
    obtain ⟨he', -⟩ := List.cons.inj hmore
    refine judged_eq_value.mpr ⟨listing, (Prod.mk.inj he').2, ?_⟩
    simpa [identifies_iff, ← Bool.not_eq_true] using habsent

/-- A listing that shows another checkpoint confirms the removal. -/
theorem checkpoint_removed_iff_other :
    let checkpoint : Guid := ⟨List.replicate 32 10, rfl⟩
    let other : Record := ⟨[("Id", .guid ⟨List.replicate 32 11, rfl⟩)]⟩
    let w : Rehearsal := { executions := [.finished {}, .finished { records := [other] }] }
    ((default : Gate).drive.run Rehearsal.world w).1 = .ok () ∧
      (Task.run Rehearsal.world ((removeCheckpoint .nil checkpoint).call default) w).1 =
        .value (.verdict true) := by
  intro checkpoint other w
  have hpassed : ((default : Gate).drive.run Rehearsal.world w).1 = .ok () := rfl
  refine ⟨hpassed, (checkpoint_removed_iff hpassed).mpr ⟨_, _, rfl, rfl, ?_⟩⟩
  rintro r hr hidentifies
  obtain rfl := List.mem_singleton.mp hr
  exact absurd (identifies_iff.mpr hidentifies) (by decide)

/-- A listing that is denied confirms it as well. -/
theorem denied_listing_confirms :
    let id : Guid := ⟨List.replicate 32 1, rfl⟩
    let checkpoint : Guid := ⟨List.replicate 32 10, rfl⟩
    let denied : Outcome := { errorText := "Access is denied.", errorCode := -2147024891 }
    let w : Rehearsal := { executions := [.finished {}, .finished denied] }
    let call := (removeCheckpoint id checkpoint).call default
    ((default : Gate).drive.run Rehearsal.world w).1 = .ok () ∧
      (Task.executions Rehearsal.world call w).map (·.2) = [.finished {}, .finished denied] ∧
      denied.errorText ≠ "" ∧
      (Task.run Rehearsal.world call w).1 = .value (.verdict true) := by
  intro id checkpoint denied w call
  exact ⟨rfl, rfl, by decide, rfl⟩

end Operation

end GuestControl
