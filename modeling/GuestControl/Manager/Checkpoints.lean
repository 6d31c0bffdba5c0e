import GuestControl.Manager.Basic

/-!
# Checkpoint operations

Applying and removing a checkpoint are confirmed by a second query while the
slot is still held: the machine's parent must be the checkpoint, or the
listing must not show it any more.
-/

namespace GuestControl.Manager

open Service (Gate)

def hasTaken (o : Outcome) : Except Error Bool :=
  match o.first? with
  | none => .ok false
  | some r => (Checkpoint.schema.read r).map fun c => !c.id.isNil

def takeCheckpoint (g : Gate) (id : Guid) : Call Bool :=
  onMachine g id do
    let o ← runChecked "create checkpoint" (some id)
      (.build (lookUpMachine id ++
        [.command Cmdlet.takeCheckpoint, .argument Parameter.passThru (.bool true)])) .piped
    .ofExcept (hasTaken o)

def checkpointPipeline (command : String) (checkpoint : Guid) : Pipeline :=
  .build (lookUpCheckpoint checkpoint ++
    [.command command, .argument Parameter.confirm (.bool false)])

/-- The verdict on a restored checkpoint: it must be the parent of the machine. -/
def hasApplied (checkpoint : Guid) (o : Outcome) : Except Error Bool :=
  match o.first? with
  | none => .ok false
  | some r => (Machine.schema.read r).map fun m => m.parentCheckpointId == some checkpoint

def applyCheckpoint (g : Gate) (id checkpoint : Guid) : Call Bool :=
  onMachine g id do
    let _ ← runChecked "apply checkpoint" (some id)
      (checkpointPipeline Cmdlet.restoreCheckpoint checkpoint) .piped
    let o ← run "apply checkpoint" (some id) (machinePipeline id) .separate
    .ofExcept (hasApplied checkpoint o)

def identifies (id : Guid) (r : Record) : Bool :=
  match r.get? Member.id with
  | none => false
  | some v => v.toGuid.toOption == some id

def removeCheckpoint (g : Gate) (id checkpoint : Guid) : Call Bool :=
  onMachine g id do
    let _ ← runChecked "remove checkpoint" (some id)
      (checkpointPipeline Cmdlet.removeCheckpoint checkpoint) .piped
    let o ← run "remove checkpoint" (some id) (checkpointsPipeline id) .piped
    .pure (!o.records.any (identifies checkpoint))

end GuestControl.Manager
