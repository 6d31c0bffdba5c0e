import GuestControl.Manager.Checkpoints
import GuestControl.Manager.Lifecycle
import GuestControl.Manager.Query

/-!
# Operations

The fifteen operations with their arguments as data, so that calls can be
scheduled, sent over a wire and reasoned about as one kind of thing.
-/

namespace GuestControl

inductive Operation where
  | listMachines
  | getMachine (id : Guid)
  | listCheckpoints (id : Guid)
  | getHost
  | diskSize (path : String)
  | start (id : Guid)
  | stop (id : Guid) (kind : Machine.StopKind)
  | pause (id : Guid)
  | resume (id : Guid)
  | restart (id : Guid)
  | remove (id : Guid)
  | create (parameters : Machine.Creation)
  | takeCheckpoint (id : Guid)
  | applyCheckpoint (id checkpoint : Guid)
  | removeCheckpoint (id checkpoint : Guid)

inductive Answer where
  | machines (ms : List Machine)
  | machine (m : Machine)
  | checkpoints (cs : List Checkpoint)
  | host (h : Host)
  | size (n : UInt64)
  /-- Whether the machine is in the state that the operation aims at. -/
  | verdict (b : Bool)

def Call.map {α β : Type} (f : α → β) (c : Call α) : Call β := Task.map (Ending.map f) c

def Operation.call (g : Service.Gate) : Operation → Call Answer
  | listMachines => (Manager.listMachines g).map .machines
  | getMachine id => (Manager.getMachine g id).map .machine
  | listCheckpoints id => (Manager.listCheckpoints g id).map .checkpoints
  | getHost => (Manager.getHost g).map .host
  | diskSize path => (Manager.diskSize g path).map .size
  | start id => (Manager.start g id).map .verdict
  | stop id kind => (Manager.stop g id kind).map .verdict
  | pause id => (Manager.pause g id).map .verdict
  | resume id => (Manager.resume g id).map .verdict
  | restart id => (Manager.restart g id).map .verdict
  | remove id => (Manager.remove g id).map .verdict
  | create c => (Manager.create g c).map .machine
  | takeCheckpoint id => (Manager.takeCheckpoint g id).map .verdict
  | applyCheckpoint id checkpoint => (Manager.applyCheckpoint g id checkpoint).map .verdict
  | removeCheckpoint id checkpoint => (Manager.removeCheckpoint g id checkpoint).map .verdict

def Operation.machine? : Operation → Option Guid
  | getMachine id | listCheckpoints id | start id | stop id _ | pause id | resume id
  | restart id | remove id | takeCheckpoint id | applyCheckpoint id _
  | removeCheckpoint id _ => some id
  | listMachines | getHost | diskSize _ | create _ => none

end GuestControl
