import GuestControl.Proofs.Operation.Course
import GuestControl.Rehearsal

/-!
# What operations do to the host

Whatever its pipelines come to, an operation runs the first one or both of the
pipelines that are planned for it. Its own change of the host is part of the first
and of no other, so it is made at most once and never tried again; what follows only
asks back or applies settings, to what the operation is about and nothing else.
-/

namespace GuestControl

open Manager
open Service (Gate)

namespace Cmdlet

def changes : List String :=
  [startMachine, stopMachine, suspendMachine, resumeMachine, restartMachine, removeMachine,
    takeCheckpoint, restoreCheckpoint, removeCheckpoint, newMachine]

def queries : List String := [getMachine, getCheckpoint, getHost, getDisk]

theorem not_changes_of_queries {name : String} (h : name ∈ queries) : name ∉ changes := by
  revert name
  decide +kernel

end Cmdlet

def Pipeline.arguments (p : Pipeline) : List (String × String × Argument) :=
  p.commands.flatMap fun c => c.arguments.map fun a => (c.name, a)

def Execution.record? : Execution → Option Record
  | .finished o => o.first?
  | .failed _ | .crashed _ => none

namespace Operation

-- ---------------------------------------------------------------------------
-- Commands
-- ---------------------------------------------------------------------------

def change? : Operation → Option String
  | .start _ => some Cmdlet.startMachine
  | .stop _ _ => some Cmdlet.stopMachine
  | .pause _ => some Cmdlet.suspendMachine
  | .resume _ => some Cmdlet.resumeMachine
  | .restart _ => some Cmdlet.restartMachine
  | .remove _ => some Cmdlet.removeMachine
  | .create _ => some Cmdlet.newMachine
  | .takeCheckpoint _ => some Cmdlet.takeCheckpoint
  | .applyCheckpoint _ _ => some Cmdlet.restoreCheckpoint
  | .removeCheckpoint _ _ => some Cmdlet.removeCheckpoint
  | .listMachines | .getMachine _ | .listCheckpoints _ | .getHost | .diskSize _ => none

def lookUps : Operation → List String
  | .create _ => []
  | .listCheckpoints _ => [Cmdlet.getMachine, Cmdlet.getCheckpoint]
  | .getHost => [Cmdlet.getHost]
  | .diskSize _ => [Cmdlet.getDisk]
  | .applyCheckpoint _ _ | .removeCheckpoint _ _ => [Cmdlet.getCheckpoint]
  | .listMachines | .getMachine _ | .start _ | .stop _ _ | .pause _ | .resume _ | .restart _
  | .remove _ | .takeCheckpoint _ => [Cmdlet.getMachine]

theorem names_first (op : Operation) :
    op.first.pipeline.names = op.lookUps ++ op.change?.toList := by
  cases op with
  | stop id kind =>
    cases kind with
    | _ => rfl
  | _ => rfl

theorem lookUps_queries (op : Operation) : ∀ name ∈ op.lookUps, name ∈ Cmdlet.queries := by
  cases op with
  | _ => simp [lookUps, Cmdlet.queries]

theorem change_changes (op : Operation) : ∀ name ∈ op.change?.toList, name ∈ Cmdlet.changes := by
  cases op with
  | _ => simp [change?, Cmdlet.changes]

def checkpoint? : Operation → Option Guid
  | .applyCheckpoint _ checkpoint | .removeCheckpoint _ checkpoint => some checkpoint
  | _ => none

/-- An argument that names a machine or a checkpoint names one that the operation was
given or the machine that it made. -/
inductive Aimed (op : Operation) : Option Record → String × String × Argument → Prop
  | machine {id : Guid} : op.machine? = some id →
      Aimed op made (Cmdlet.getMachine, Parameter.id, .guid id)
  | checkpoint {id : Guid} : op.checkpoint? = some id →
      Aimed op made (Cmdlet.getCheckpoint, Parameter.id, .guid id)
  | made : op = .create c → Aimed op (some r) (command, Parameter.machine, .reference r)
  | other : name ∉ [Parameter.id, Parameter.machine] → Aimed op made (command, name, v)

-- ---------------------------------------------------------------------------
-- Plans
-- ---------------------------------------------------------------------------

/-- The pipeline that is planned after the first one, where New-VM has returned a record. -/
def second? : Operation → Option Record → Option (Pipeline × Mode)
  | .remove id, _ | .applyCheckpoint id _, _ => some (machinePipeline id, .separate)
  | .removeCheckpoint id _, _ => some (checkpointsPipeline id, .piped)
  | .create c, some r =>
    match Machine.schema.read r with
    | .ok m => some (settingsPipeline c r m, .separate)
    | .error _ => none
  | _, _ => none

def plan (op : Operation) (made : Option Record) : List (Pipeline × Mode) :=
  (op.first.pipeline, op.first.mode) :: (op.second? made).toList

def Proceeds (op : Operation) (o : Outcome) : Prop :=
  o.hasError = false ∧
    match op with
    | .remove _ => reportsDeleted o = false
    | .create _ => ∃ r m, o.first? = some r ∧ Machine.schema.read r = .ok m
    | .applyCheckpoint _ _ | .removeCheckpoint _ _ => True
    | _ => False

variable {op : Operation} {o : Outcome} {made : Option Record} {k : Pipeline × Mode}
  {xs : List Exchange} {ending : Ending Answer} {id : Guid}

theorem names_settings (c : Machine.Creation) (r : Record) (m : Machine) :
    (settingsPipeline c r m).names =
      Cmdlet.setMachine :: if c.generation = 2 then [Cmdlet.setFirmware] else [] := by
  unfold settingsPipeline
  cases startupMemory c m with
  | _ => split <;> rfl

section
variable {a : String × String × Argument} {as : List (String × String × Argument)}

theorem Aimed.cons (ha : op.Aimed made a) (has : ∀ b ∈ as, op.Aimed made b) :
    ∀ b ∈ a :: as, op.Aimed made b := List.forall_mem_cons.mpr ⟨ha, has⟩

theorem Aimed.nil : ∀ b ∈ [], op.Aimed made b := List.forall_mem_nil _

theorem Aimed.others {command name : String} {v : Argument} (has : ∀ b ∈ as, op.Aimed made b)
    (h : name ∉ [Parameter.id, Parameter.machine] := by decide) :
    ∀ b ∈ (command, name, v) :: as, op.Aimed made b := .cons (.other h) has

end

theorem aimed_first (op : Operation) : ∀ a ∈ op.first.pipeline.arguments, op.Aimed made a := by
  cases op with
  | listMachines | getHost => exact .nil
  | getMachine _ | listCheckpoints _ => exact .cons (.machine rfl) .nil
  | diskSize _ => exact .others .nil
  | start _ | pause _ | resume _ | takeCheckpoint _ => exact .cons (.machine rfl) (.others .nil)
  | restart _ | remove _ => exact .cons (.machine rfl) (.others (.others .nil))
  | stop _ kind =>
    cases kind with
    | default => exact .cons (.machine rfl) (.others .nil)
    | save | turnOff => exact .cons (.machine rfl) (.others (.others .nil))
  | create _ => exact .others (.others (.others (.others .nil)))
  | applyCheckpoint _ _ | removeCheckpoint _ _ => exact .cons (.checkpoint rfl) (.others .nil)

theorem aimed_settings (c : Machine.Creation) (r : Record) (m : Machine) :
    ∀ a ∈ (settingsPipeline c r m).arguments, (create c).Aimed (some r) a := by
  unfold settingsPipeline
  cases startupMemory c m with
  | none =>
    split
    · exact .cons (.made rfl) (.others (.others (.cons (.made rfl) (.others .nil))))
    · exact .cons (.made rfl) (.others (.others .nil))
  | some v =>
    split
    · exact .cons (.made rfl) (.others (.others (.others (.cons (.made rfl) (.others .nil)))))
    · exact .cons (.made rfl) (.others (.others (.others .nil)))

theorem second?_cases (h : op.second? made = some k) :
    (∃ id, op.machine? = some id ∧ (k = (machinePipeline id, .separate) ∨
      k = (checkpointsPipeline id, .piped))) ∨
    ∃ c r m, op = .create c ∧ made = some r ∧ Machine.schema.read r = .ok m ∧
      k = (settingsPipeline c r m, .separate) := by
  cases op with
  | remove id | applyCheckpoint id _ =>
    cases h
    exact .inl ⟨id, rfl, .inl rfl⟩
  | removeCheckpoint id _ =>
    cases h
    exact .inl ⟨id, rfl, .inr rfl⟩
  | create c =>
    cases made with
    | none => cases h
    | some r =>
      simp only [second?] at h
      split at h
      · cases h
        exact .inr ⟨c, r, _, rfl, rfl, ‹_›, rfl⟩
      · cases h
  | _ => cases h

theorem aimed_second (h : op.second? made = some k) : ∀ a ∈ k.1.arguments, op.Aimed made a := by
  obtain ⟨id, hmachine, rfl | rfl⟩ | ⟨c, r, m, rfl, rfl, -, rfl⟩ := second?_cases h
  · exact .cons (.machine hmachine) .nil
  · exact .cons (.machine hmachine) .nil
  · exact aimed_settings c r m

theorem names_second (h : op.second? made = some k) (hmade : ∀ c, op ≠ .create c) :
    ∀ name ∈ k.1.names, name ∈ Cmdlet.queries := by
  obtain ⟨id, -, rfl | rfl⟩ | ⟨c, r, m, hop, -⟩ := second?_cases h
  · change ∀ name ∈ [Cmdlet.getMachine], name ∈ Cmdlet.queries
    decide
  · change ∀ name ∈ [Cmdlet.getMachine, Cmdlet.getCheckpoint], name ∈ Cmdlet.queries
    decide
  · exact absurd hop (hmade c)

theorem unchanging_second (h : op.second? made = some k) :
    ∀ name ∈ k.1.names, name ∉ Cmdlet.changes := by
  obtain ⟨id, hmachine, -⟩ | ⟨c, r, m, -, -, -, rfl⟩ := second?_cases h
  · have hmade (c : Machine.Creation) : op ≠ .create c := by
      rintro rfl
      cases hmachine
    exact fun name hname => Cmdlet.not_changes_of_queries (names_second h hmade name hname)
  · rw [names_settings]
    split
    · decide
    · decide

-- ---------------------------------------------------------------------------
-- What is run
-- ---------------------------------------------------------------------------

theorem not_proceeds_of_done {result : Except Error Answer} (h : op.sequel o = .done result) :
    ¬ op.Proceeds o := by
  rintro ⟨-, hproceeds⟩
  cases op with
  | remove id => simp [sequel, hproceeds] at h
  | create c =>
    obtain ⟨r, m, hfirst, hread⟩ := hproceeds
    simp [sequel, hfirst, hread] at h
  | applyCheckpoint _ _ | removeCheckpoint _ _ => cases h
  | _ => exact hproceeds

theorem not_proceeds_of_stops {e : Execution} (h : op.stops? e = some ending)
    (ho : e = .finished o) : ¬ op.Proceeds o := by
  rintro ⟨herror, -⟩
  subst ho
  simp [stops?, herror] at h

/-- Nothing is run but the first pipeline, or it is and the second one after it. -/
theorem Course.executed (h : op.Course xs ending) :
    (∃ e, xs.filterMap Exchange.execution? = [((op.first.pipeline, op.first.mode), e)] ∧
      ∀ o, e = .finished o → ¬ op.Proceeds o) ∨
    ∃ o k e, xs.filterMap Exchange.execution? =
        [((op.first.pipeline, op.first.mode), .finished o), (k, e)] ∧
      op.Proceeds o ∧ op.second? o.first? = some k := by
  cases h with
  | stopped hstops => exact .inl ⟨_, rfl, fun o ho => not_proceeds_of_stops hstops ho⟩
  | done hgoes hsequel =>
    refine .inl ⟨_, rfl, fun o ho => ?_⟩
    cases ho
    exact not_proceeds_of_done hsequel
  | query hgoes hsequel =>
    refine .inr ⟨_, _, _, rfl, ?_⟩
    obtain ⟨id, rfl, hdeleted, rfl, rfl, -⟩ | ⟨id, checkpoint, rfl, rfl, rfl, -⟩ |
      ⟨id, checkpoint, rfl, rfl, rfl, -⟩ := sequel_query hsequel
    · exact ⟨⟨stops?_finished.mp hgoes rfl, hdeleted⟩, rfl⟩
    · exact ⟨⟨stops?_finished.mp hgoes rfl, trivial⟩, rfl⟩
    · exact ⟨⟨stops?_finished.mp hgoes rfl, trivial⟩, rfl⟩
  | settings hgoes hsequel =>
    obtain ⟨c, r, rfl, hfirst, hread, rfl⟩ := sequel_settings hsequel
    refine .inr ⟨_, _, _, rfl, ⟨stops?_finished.mp hgoes rfl, r, _, hfirst, hread⟩, ?_⟩
    simp only [second?, hfirst, hread]

structure Restrained (op : Operation) (xs : List ((Pipeline × Mode) × Execution)) : Prop where
  /-- Pipelines are run in the order of the plan, which New-VM's record may complete. -/
  planned : ∃ e more, xs = ((op.first.pipeline, op.first.mode), e) :: more ∧
    xs.map (·.1) <+: op.plan e.record?
  second_iff : xs.length = 2 ↔ ∃ k o, xs.head? = some (k, .finished o) ∧ op.Proceeds o
  /-- The one change is made once, in one pipeline, and there is no other. -/
  change : (xs.flatMap fun x => x.1.1.names).filter (· ∈ Cmdlet.changes) = op.change?.toList
  queries : op.change? = none → ∀ x ∈ xs, ∀ name ∈ x.1.1.names, name ∈ Cmdlet.queries
  again : (∀ c, op ≠ .create c) → ∀ x ∈ xs.tail, ∀ name ∈ x.1.1.names, name ∈ Cmdlet.queries
  aimed : ∀ x ∈ xs, ∀ a ∈ x.1.1.arguments, op.Aimed (xs.head?.bind (·.2.record?)) a

theorem changes_first (op : Operation) :
    op.first.pipeline.names.filter (· ∈ Cmdlet.changes) = op.change?.toList := by
  have hlookUps : op.lookUps.filter (· ∈ Cmdlet.changes) = [] :=
    List.filter_eq_nil_iff.mpr fun name hname => by
      simpa using Cmdlet.not_changes_of_queries (op.lookUps_queries name hname)
  have hchange : op.change?.toList.filter (· ∈ Cmdlet.changes) = op.change?.toList :=
    List.filter_eq_self.mpr fun name hname => by simpa using op.change_changes name hname
  rw [names_first, List.filter_append, hlookUps, hchange, List.nil_append]

theorem queries_first (h : op.change? = none) :
    ∀ name ∈ op.first.pipeline.names, name ∈ Cmdlet.queries := by
  rw [names_first, h, Option.toList_none, List.append_nil]
  exact op.lookUps_queries

theorem restrained_first {e : Execution} (h : ∀ o, e = .finished o → ¬ op.Proceeds o) :
    op.Restrained [((op.first.pipeline, op.first.mode), e)] where
  planned := ⟨e, [], rfl, List.prefix_append [_] _⟩
  second_iff := by
    refine ⟨fun hlength => (by cases hlength), ?_⟩
    rintro ⟨k, o, hhead, hproceeds⟩
    cases hhead
    exact absurd hproceeds (h o rfl)
  change := by
    rw [List.flatMap_singleton]
    exact op.changes_first
  queries hchange := List.forall_mem_singleton.mpr (queries_first hchange)
  again _ := List.forall_mem_nil _
  aimed := List.forall_mem_singleton.mpr op.aimed_first

theorem restrained_second {e : Execution} (hproceeds : op.Proceeds o)
    (h : op.second? o.first? = some k) :
    op.Restrained [((op.first.pipeline, op.first.mode), .finished o), (k, e)] where
  planned := by
    refine ⟨.finished o, [(k, e)], rfl, ?_⟩
    rw [plan, Execution.record?, h]
    exact List.prefix_rfl
  second_iff := ⟨fun _ => ⟨_, o, rfl, hproceeds⟩, fun _ => rfl⟩
  change := by
    have hunchanging : k.1.names.filter (· ∈ Cmdlet.changes) = [] :=
      List.filter_eq_nil_iff.mpr fun name hname => by simpa using unchanging_second h name hname
    rw [List.flatMap_cons, List.flatMap_singleton, List.filter_append, hunchanging,
      List.append_nil]
    exact op.changes_first
  queries hchange := by
    refine List.forall_mem_cons.mpr ⟨queries_first hchange, List.forall_mem_singleton.mpr ?_⟩
    refine names_second h ?_
    rintro c rfl
    cases hchange
  again hmade := List.forall_mem_singleton.mpr (names_second h hmade)
  aimed :=
    List.forall_mem_cons.mpr ⟨op.aimed_first, List.forall_mem_singleton.mpr (aimed_second h)⟩

theorem Course.restrained (h : op.Course xs ending) :
    op.Restrained (xs.filterMap Exchange.execution?) := by
  obtain ⟨e, hxs, hstays⟩ | ⟨o, k, e, hxs, hproceeds, hsecond⟩ := h.executed
  · rw [hxs]
    exact restrained_first hstays
  · rw [hxs]
    exact restrained_second hproceeds hsecond

/-- Whatever its pipelines come to, an operation runs what is planned, changes the host
once at most and is about nothing else than it was given. -/
theorem runs_as_planned {σ : Type} (op : Operation) (g : Gate) (world : Task.World σ) (w : σ)
    (h : (g.drive.run world w).1 = .ok ()) :
    op.Restrained (Task.executions world (op.call g) w) := by
  obtain ⟨xs, hexecutions, hcourse⟩ := op.executions_of_passed h
  rw [hexecutions]
  exact hcourse.restrained

/-- The settings of a new machine cannot be applied, and it is not made again. -/
theorem runs_as_planned_unsettled :
    let xs := Task.executions Rehearsal.world ((create (.new "worker" "worker.vhdx")).call default)
      { executions := [.finished { records := [.empty] }, .failed (.undecodable "")] }
    xs.length = 2 ∧
      (xs.flatMap fun x => x.1.1.names).filter (· ∈ Cmdlet.changes) = [Cmdlet.newMachine] := by
  intro xs
  have h := runs_as_planned (create (.new "worker" "worker.vhdx")) default Rehearsal.world
    { executions := [.finished { records := [.empty] }, .failed (.undecodable "")] } rfl
  exact ⟨h.second_iff.mpr ⟨_, _, rfl, rfl, .empty, _, rfl, rfl⟩, h.change⟩

end Operation

end GuestControl
