import GuestControl.Manager.Basic

/-!
# Queries

Listing queries skip objects that cannot be read and go on in spite of error
text, which may concern some of the objects only.
-/

namespace GuestControl.Manager

open Service (Gate)

def listMachines (g : Gate) : Call (List Machine) := do
  g.ensureRunning
  let o ← run "get all virtual machines" none (.build [.command Cmdlet.getMachine]) .separate
  .pure (Machine.schema.readAll o.records)

def getMachine (g : Gate) (id : Guid) : Call Machine :=
  onMachine g id do
    let o ← runChecked "get virtual machine" (some id) (machinePipeline id) .separate
    match o.first? with
    | some r => .ofExcept (Machine.schema.read r)
    | none => .fail (.notFound id unexpectedCode)

def listCheckpoints (g : Gate) (id : Guid) : Call (List Checkpoint) :=
  onMachine g id do
    let o ← run "get checkpoints" (some id) (checkpointsPipeline id) .piped
    .pure (Checkpoint.schema.readAll o.records)

def getHost (g : Gate) : Call Host := do
  g.ensureRunning
  let o ← runChecked "get host" none (.build [.command Cmdlet.getHost]) .separate
  match o.first? with
  | some r => .ofExcept (Host.schema.read r)
  | none => .fail (.failed "get host" none "no host object returned" unexpectedCode)

/-- The size that a disk's record states; zero if there is none. -/
def sizeOf (o : Outcome) : Except Error UInt64 :=
  match o.first?.bind (·.get? Member.size) with
  | none => .ok 0
  | some v =>
    match v.toUInt64 with
    | .ok n => .ok n
    | .error m => .error (.ofMismatch Member.size m)

/-- The size in bytes of a virtual disk; zero if the disk could not be read. -/
def diskSize (g : Gate) (path : String) : Call UInt64 := do
  g.ensureRunning
  let o ← run "get vhd size" none
    (.build [.command Cmdlet.getDisk, .argument Parameter.path (.string path)]) .piped
  .ofExcept (sizeOf o)

end GuestControl.Manager
