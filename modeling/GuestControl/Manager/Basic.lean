import GuestControl.Machine.Basic
import GuestControl.Pipeline.Cmdlet
import GuestControl.Service.Gate

/-!
# Running pipelines for an operation

An operation first passes the readiness gate. What touches one machine then
holds that machine's slot for all of its pipelines. A pipeline that could not
be run fails the operation; a checked pipeline also fails it with the error
text of its commands.
-/

namespace GuestControl.Manager

open Service (Gate)
open Pipeline (Step)

/-- An operation on the machine `id`, from the gate to the release of the slot. -/
def onMachine {α : Type} (g : Gate) (id : Guid) (c : Call α) : Call α := do
  g.ensureRunning
  c.holding id

/-- Runs a pipeline; only one that could not be run is an error. -/
def run (operation : String) (resource : Option Guid) (p : Pipeline) (mode : Mode) :
    Call Outcome :=
  Call.execute p mode fun execution =>
    match execution with
    | .finished o => .pure o
    | .failed e => .fail (.failed operation resource e.message unexpectedCode)
    | .crashed report => .ofEnding (.crashed report)

/-- Runs a pipeline; error text is an error too. -/
def runChecked (operation : String) (resource : Option Guid) (p : Pipeline) (mode : Mode) :
    Call Outcome := do
  let o ← run operation resource p mode
  if o.hasError then .fail (.failed operation resource o.errorText o.errorCode)
  else .pure o

-- ---------------------------------------------------------------------------
-- Pipelines
-- ---------------------------------------------------------------------------

def lookUpMachine (id : Guid) : List Step :=
  [.command Cmdlet.getMachine, .argument Parameter.id (.guid id)]

def lookUpCheckpoint (checkpoint : Guid) : List Step :=
  [.command Cmdlet.getCheckpoint, .argument Parameter.id (.guid checkpoint)]

def machinePipeline (id : Guid) : Pipeline := .build (lookUpMachine id)

def checkpointsPipeline (id : Guid) : Pipeline :=
  .build (lookUpMachine id ++ [.command Cmdlet.getCheckpoint])

end GuestControl.Manager
