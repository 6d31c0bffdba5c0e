import GuestControl.Proofs.Wording
import GuestControl.Web.Reply
import Mathlib.Data.List.Forall2

/-!
# What is sent of an answer

An operation that has a value has one of its own kind. Its members are sent under the
names listed here; a verdict is sent with the machine and the title of its operation.
-/

namespace GuestControl

-- ---------------------------------------------------------------------------
-- Values
-- ---------------------------------------------------------------------------

theorem Call.value_of_map {α β σ : Type} {world : Task.World σ} {f : α → β} {c : Call α} {s : σ}
    {b : β} (h : (Task.run world (c.map f) s).1 = .value b) : ∃ a, b = f a := by
  have hrun : (Task.run world (c.map f) s).1 = (Task.run world c s).1.map f :=
    congrArg Prod.fst (Task.run_bind world c _ s)
  rw [hrun] at h
  generalize (Task.run world c s).1 = ending at h
  cases ending with
  | value a => exact ⟨a, (Ending.value.inj h).symm⟩
  | error | crashed => cases h

namespace Web

open Json (Doc)

-- ---------------------------------------------------------------------------
-- Objects
-- ---------------------------------------------------------------------------

def stateNames : List (Machine.State × String) :=
  [(.other, "Other"), (.running, "Running"), (.off, "Off"), (.stopping, "Stopping"),
    (.saved, "Saved"), (.paused, "Paused"), (.starting, "Starting"), (.reset, "Reset"),
    (.saving, "Saving"), (.pausing, "Pausing"), (.resuming, "Resuming"), (.unknown, "Unknown")]

inductive SentParent : Option Guid → Doc → Prop
  | none : SentParent none .null
  | some {id : Guid} : id.Grouped text → SentParent (some id) (.text text)

inductive SentMachine (m : Machine) : Doc → Prop
  | intro {id state : String} {parent : Doc} : m.id.Grouped id → (m.state, state) ∈ stateNames →
      SentParent m.parentCheckpointId parent →
      SentMachine m (.fields
        [("id", .text id), ("name", .text m.name), ("state", .text state),
          ("processor_count", .nat m.processorCount.toNat),
          ("memory_startup_bytes", .nat m.memoryStartup.toNat),
          ("memory_minimum_bytes", .nat m.memoryMinimum.toNat),
          ("memory_maximum_bytes", .nat m.memoryMaximum.toNat),
          ("generation", .nat m.generation.toNat), ("parent_checkpoint_id", parent),
          ("parent_checkpoint_name", .text m.parentCheckpointName), ("path", .text m.path),
          ("computer_name", .text m.computerName)])

inductive SentCheckpoint (c : Checkpoint) : Doc → Prop
  | intro {id : String} {parent : Doc} : c.id.Grouped id →
      SentParent c.parentCheckpointId parent →
      SentCheckpoint c (.fields
        [("id", .text id), ("name", .text c.name), ("parent_checkpoint_id", parent),
          ("parent_checkpoint_name", .text c.parentCheckpointName)])

theorem sentParent (id? : Option Guid) : SentParent id? (.optional (id?.map guidDoc)) := by
  cases id? with
  | none => exact .none
  | some id => exact .some id.grouped_text

theorem sentMachine (m : Machine) : SentMachine m (machineDoc m) := by
  refine .intro m.id.grouped_text ?_ (sentParent _)
  cases m.state with
  | _ => decide

theorem sentCheckpoint (c : Checkpoint) : SentCheckpoint c (checkpointDoc c) :=
  .intro c.id.grouped_text (sentParent _)

-- ---------------------------------------------------------------------------
-- Answers
-- ---------------------------------------------------------------------------

inductive Titled (id : Guid) : Operation → String → Prop
  | remove : Titled id (.remove id) "remove"
  | start : Titled id (.start id) "start"
  | stop : (kind, name) ∈ [(.default, "default"), (.save, "save"), (.turnOff, "turnoff")] →
      Titled id (.stop id kind) ("stop (" ++ name ++ ")")
  | pause : Titled id (.pause id) "pause"
  | resume : Titled id (.resume id) "resume"
  | restart : Titled id (.restart id) "restart"
  | takeCheckpoint : Titled id (.takeCheckpoint id) "create checkpoint"
  | applyCheckpoint {checkpoint : Guid} : checkpoint.Grouped text →
      Titled id (.applyCheckpoint id checkpoint) ("apply checkpoint " ++ text)
  | removeCheckpoint {checkpoint : Guid} : checkpoint.Grouped text →
      Titled id (.removeCheckpoint id checkpoint) ("remove checkpoint " ++ text)

inductive Sent : Operation → Answer → Doc → Prop
  | machines : List.Forall₂ SentMachine ms docs → Sent .listMachines (.machines ms) (.array docs)
  | machine {id : Guid} : SentMachine m d → Sent (.getMachine id) (.machine m) d
  | created : SentMachine m d → Sent (.create c) (.machine m) d
  | checkpoints {id : Guid} : List.Forall₂ SentCheckpoint cs docs →
      Sent (.listCheckpoints id) (.checkpoints cs) (.array docs)
  | host : Sent .getHost (.host h) (.fields
      [("computer_name", .text h.computerName),
        ("logical_processor_count", .nat h.logicalProcessorCount.toNat),
        ("memory_capacity_bytes", .nat h.memoryCapacity.toNat), ("vm_path", .text h.machinePath),
        ("vhd_path", .text h.diskPath)])
  | size : Sent (.diskSize path) (.size n)
      (.fields [("path", .text path), ("size_bytes", .nat n.toNat)])
  | verdict {id : Guid} : id.Grouped text → Titled id op title →
      Sent op (.verdict completed) (.fields
        [("id", .text text), ("operation", .text title), ("completed", .bool completed)])

theorem forall₂_map {α : Type} {R : α → Doc → Prop} {f : α → Doc} (h : ∀ a, R a (f a))
    (as : List α) : List.Forall₂ R as (as.map f) :=
  List.forall₂_map_right_iff.mpr (List.forall₂_same.mpr fun a _ => h a)

/-- The data that is sent is that of the value, whatever the surroundings were. -/
theorem sent_data {σ : Type} {op : Operation} {g : Service.Gate} {world : Task.World σ} {s : σ}
    {a : Answer} (h : (Task.run world (op.call g) s).1 = .value a) : Sent op a (data op a) := by
  cases op with
  | listMachines =>
    obtain ⟨ms, rfl⟩ := Call.value_of_map h
    exact .machines (forall₂_map sentMachine ms)
  | getMachine id =>
    obtain ⟨m, rfl⟩ := Call.value_of_map h
    exact .machine (sentMachine m)
  | create c =>
    obtain ⟨m, rfl⟩ := Call.value_of_map h
    exact .created (sentMachine m)
  | listCheckpoints id =>
    obtain ⟨cs, rfl⟩ := Call.value_of_map h
    exact .checkpoints (forall₂_map sentCheckpoint cs)
  | getHost =>
    obtain ⟨host, rfl⟩ := Call.value_of_map h
    exact .host
  | diskSize path =>
    obtain ⟨n, rfl⟩ := Call.value_of_map h
    exact .size
  | stop id kind =>
    obtain ⟨completed, rfl⟩ := Call.value_of_map h
    cases kind with
    | _ => exact .verdict id.grouped_text (.stop (by decide))
  | applyCheckpoint id checkpoint =>
    obtain ⟨completed, rfl⟩ := Call.value_of_map h
    exact .verdict id.grouped_text (.applyCheckpoint checkpoint.grouped_text)
  | removeCheckpoint id checkpoint =>
    obtain ⟨completed, rfl⟩ := Call.value_of_map h
    exact .verdict id.grouped_text (.removeCheckpoint checkpoint.grouped_text)
  | remove id | start id | pause id | resume id | restart id | takeCheckpoint id =>
    obtain ⟨completed, rfl⟩ := Call.value_of_map h
    exact .verdict id.grouped_text (by constructor)

end Web

end GuestControl
