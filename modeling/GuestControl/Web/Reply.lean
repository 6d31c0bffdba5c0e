import GuestControl.Operation

/-!
# Replies

A reply of the agent is an envelope with the fields `success`, `data` and
`error`. Each failure of an operation has a status of its own. Rejections by
the frame around the agent have a status and nothing that is fixed beyond it.
-/

namespace GuestControl

/-- The name of an operation whose answer is a verdict, as it is reported. -/
def Operation.label : Operation → String
  | remove _ => "remove"
  | start _ => "start"
  | stop _ kind => "stop (" ++ kind.name ++ ")"
  | pause _ => "pause"
  | resume _ => "resume"
  | restart _ => "restart"
  | takeCheckpoint _ => "create checkpoint"
  | applyCheckpoint _ checkpoint => "apply checkpoint " ++ checkpoint.text
  | removeCheckpoint _ checkpoint => "remove checkpoint " ++ checkpoint.text
  | listMachines | getMachine _ | listCheckpoints _ | getHost | diskSize _ | create _ => ""

def Operation.disk : Operation → String
  | diskSize path => path
  | _ => ""

namespace Web

open Json (Doc)

structure Reply where
  status : Nat
  contentType : Option String := none
  body : String := ""
  deriving DecidableEq

def jsonType : String := "application/json"

-- ---------------------------------------------------------------------------
-- Data
-- ---------------------------------------------------------------------------

def guidDoc (g : Guid) : Doc := .text g.text

def machineDoc (m : Machine) : Doc :=
  .fields
    [("id", guidDoc m.id), ("name", .text m.name), ("state", .text m.state.name),
      ("processor_count", .nat m.processorCount.toNat),
      ("memory_startup_bytes", .nat m.memoryStartup.toNat),
      ("memory_minimum_bytes", .nat m.memoryMinimum.toNat),
      ("memory_maximum_bytes", .nat m.memoryMaximum.toNat),
      ("generation", .nat m.generation.toNat),
      ("parent_checkpoint_id", .optional (m.parentCheckpointId.map guidDoc)),
      ("parent_checkpoint_name", .text m.parentCheckpointName), ("path", .text m.path),
      ("computer_name", .text m.computerName)]

def checkpointDoc (c : Checkpoint) : Doc :=
  .fields
    [("id", guidDoc c.id), ("name", .text c.name),
      ("parent_checkpoint_id", .optional (c.parentCheckpointId.map guidDoc)),
      ("parent_checkpoint_name", .text c.parentCheckpointName)]

def hostDoc (h : Host) : Doc :=
  .fields
    [("computer_name", .text h.computerName),
      ("logical_processor_count", .nat h.logicalProcessorCount.toNat),
      ("memory_capacity_bytes", .nat h.memoryCapacity.toNat), ("vm_path", .text h.machinePath),
      ("vhd_path", .text h.diskPath)]

def data (o : Operation) : Answer → Doc
  | .machines ms => .array (ms.map machineDoc)
  | .machine m => machineDoc m
  | .checkpoints cs => .array (cs.map checkpointDoc)
  | .host h => hostDoc h
  | .size n => .fields [("path", .text o.disk), ("size_bytes", .nat n.toNat)]
  | .verdict b =>
    .fields
      [("id", .optional (o.machine?.map guidDoc)), ("operation", .text o.label),
        ("completed", .bool b)]

-- ---------------------------------------------------------------------------
-- Envelopes
-- ---------------------------------------------------------------------------

namespace Reply

def rejection (status : Nat) : Reply := { status := status }

def success (d : Doc) : Reply :=
  { status := 200, contentType := some jsonType
    body := (Doc.fields [("success", .bool true), ("data", d), ("error", .null)]).render }

def failure (status : Nat) (message : String) : Reply :=
  { status := status, contentType := some jsonType
    body :=
      (Doc.fields [("success", .bool false), ("data", .null), ("error", .text message)]).render }

def invalidId (raw : String) : Reply := failure 400 ("Invalid id '" ++ raw ++ "'")

def statusOf : Error → Nat
  | .serviceUnavailable .. => 503
  | .notFound .. => 404
  | .operationFailed .. => 502
  | .materialization .. => 500

def ofError (e : Error) : Reply := failure (statusOf e) e.message

def ofEnding (o : Operation) : Ending Answer → Reply
  | .value a => success (data o a)
  | .error e => ofError e
  | .crashed report => failure 500 report

end Reply

end Web

end GuestControl
