import GuestControl.Machine.Creation
import GuestControl.Manager.Basic

/-!
# The life of a machine

A change of state succeeds when the machine, as the shell returns it, reports
the state that was aimed at. A removal is confirmed by a second query unless
the returned object reports that it is deleted. A machine is created first and
then given its remaining settings, as far as that works.
-/

namespace GuestControl.Manager

open Service (Gate)
open Pipeline (Step)

-- ---------------------------------------------------------------------------
-- Changes of state
-- ---------------------------------------------------------------------------

def reached (target : Machine.State) (o : Outcome) : Except Error Bool :=
  match o.first? with
  | none => .ok false
  | some r => (Machine.schema.read r).map fun m => m.state == target

/-- Pipes a machine into a command and compares the state it reports with the target. -/
def changeState (g : Gate) (operation : String) (id : Guid) (command : List Step)
    (target : Machine.State) : Call Bool :=
  onMachine g id do
    let o ← runChecked operation (some id) (.build (lookUpMachine id ++ command)) .piped
    .ofExcept (reached target o)

def switch (name : String) (on : Bool) : Step := .argument name (.bool on)

def start (g : Gate) (id : Guid) : Call Bool :=
  changeState g "start virtual machine" id
    [.command Cmdlet.startMachine, switch Parameter.passThru true] .running

def stopSwitch : Machine.StopKind → List Step
  | .default => []
  | .save => [switch Parameter.save true]
  | .turnOff => [switch Parameter.turnOff true]

def stop (g : Gate) (id : Guid) (kind : Machine.StopKind) : Call Bool :=
  changeState g "stop virtual machine" id
    ([.command Cmdlet.stopMachine, switch Parameter.passThru true] ++ stopSwitch kind)
    kind.target

def pause (g : Gate) (id : Guid) : Call Bool :=
  changeState g "pause virtual machine" id
    [.command Cmdlet.suspendMachine, switch Parameter.passThru true] .paused

def resume (g : Gate) (id : Guid) : Call Bool :=
  changeState g "resume virtual machine" id
    [.command Cmdlet.resumeMachine, switch Parameter.passThru true] .running

def restart (g : Gate) (id : Guid) : Call Bool :=
  changeState g "restart virtual machine" id
    [.command Cmdlet.restartMachine, switch Parameter.force true, switch Parameter.passThru true]
    .running

-- ---------------------------------------------------------------------------
-- Removal
-- ---------------------------------------------------------------------------

def reportsDeleted (o : Outcome) : Bool :=
  match o.first?.bind (·.get? Member.isDeleted) with
  | none => false
  | some v => v.toBool.toOption.getD false

def removePipeline (id : Guid) : Pipeline :=
  .build (lookUpMachine id ++
    [.command Cmdlet.removeMachine, switch Parameter.force true, switch Parameter.passThru true])

/-- Removes a machine. Unless it is reported as deleted at once, it counts as
deleted if a look-up finds nothing. -/
def remove (g : Gate) (id : Guid) : Call Bool :=
  onMachine g id do
    let o ← runChecked "remove virtual machine" (some id) (removePipeline id) .piped
    if reportsDeleted o then .pure true
    else do
      let again ← run "remove virtual machine" (some id) (machinePipeline id) .separate
      .pure again.records.isEmpty

-- ---------------------------------------------------------------------------
-- Creation
-- ---------------------------------------------------------------------------

def createPipeline (c : Machine.Creation) : Pipeline :=
  .build
    [.command Cmdlet.newMachine, .argument Parameter.name (.string c.name),
      .argument Parameter.generation (.uint c.generation.toUInt64),
      .argument Parameter.diskPath (.string c.diskPath),
      .argument Parameter.switchName (.string c.switchName)]

/-- The startup memory to be set: only what lies strictly between the
machine's limits. -/
def startupMemory (c : Machine.Creation) (m : Machine) : Option Argument :=
  if m.memoryMinimum < c.memoryStartup ∧ c.memoryStartup < m.memoryMaximum then
    some (.uint c.memoryStartup)
  else none

/-- The settings of a new machine, which `r` refers to. Only machines of the
second generation have firmware settings. -/
def settingsPipeline (c : Machine.Creation) (r : Record) (m : Machine) : Pipeline :=
  .build
    ([.command Cmdlet.setMachine, .argument Parameter.machine (.reference r),
      .argument Parameter.processorCount (.uint c.processorCount.toUInt64),
      .argument Parameter.transport (.string c.transport.name),
      .optional Parameter.memoryStartup (startupMemory c m)] ++
    if c.generation = 2 then
      [.command Cmdlet.setFirmware, .argument Parameter.machine (.reference r),
        .argument Parameter.secureBoot (.string (if c.secureBoot then "On" else "Off"))]
    else [])

/-- Applies settings; whether that works is of no consequence. -/
def applySettings (p : Pipeline) : Call Unit :=
  Call.execute p .separate fun execution =>
    match execution with
    | .finished _ | .failed _ => .pure ()
    | .crashed report => .ofEnding (.crashed report)

def create (g : Gate) (c : Machine.Creation) : Call Machine := do
  g.ensureRunning
  let o ← runChecked "create virtual machine" none (createPipeline c) .separate
  match o.first? with
  | none =>
    .fail (.failed "create virtual machine" none "no virtual machine object returned"
      unexpectedCode)
  | some r => do
    let m ← Call.ofExcept (Machine.schema.read r)
    (applySettings (settingsPipeline c r m)).holding m.id
    .pure m

end GuestControl.Manager
