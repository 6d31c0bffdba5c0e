import GuestControl.Json.Decoder

/-!
# Creation parameters

What a new machine is made from. Name, generation, disk and switch are
needed for the machine to exist; the other settings are applied afterwards.
Only name and disk have no default.
-/

namespace GuestControl.Machine

inductive Transport where
  | vmBus
  | hvSocket
  deriving DecidableEq, Repr, Inhabited

namespace Transport

def name : Transport → String
  | vmBus => "VMBus"
  | hvSocket => "HvSocket"

def names : List (String × Transport) :=
  [("VMBus", vmBus), ("vmbus", vmBus), ("HvSocket", hvSocket), ("hvsocket", hvSocket)]

end Transport

structure Creation where
  name : String
  generation : UInt32 := 2
  diskPath : String
  switchName : String := "Default Switch"
  processorCount : UInt32 := 1
  memoryStartup : UInt64 := 0
  secureBoot : Bool := true
  transport : Transport := .vmBus
  deriving DecidableEq

namespace Creation

/-- The parameters with defaults for all but name and disk. -/
def new (name diskPath : String) : Creation := { name := name, diskPath := diskPath }

def fields : List (Json.Decoder.Field Creation) :=
  [.of "name" true Json.Decoder.string fun c x => { c with name := x },
    .of "generation" false Json.Decoder.uint32 fun c x => { c with generation := x },
    .of "vhd_path" true Json.Decoder.string fun c x => { c with diskPath := x },
    .of "switch_name" false Json.Decoder.string fun c x => { c with switchName := x },
    .of "processor_count" false Json.Decoder.uint32 fun c x => { c with processorCount := x },
    .of "memory_startup_bytes" false Json.Decoder.uint64 fun c x => { c with memoryStartup := x },
    .of "secure_boot" false Json.Decoder.bool fun c x => { c with secureBoot := x },
    .of "enhanced_session_transport" false (Json.Decoder.choice Transport.names)
      fun c x => { c with transport := x }]

/-- What is held where nothing is given. -/
def unset : Creation :=
  { name := "", diskPath := "", memoryStartup := default, transport := default }

def decoder : Json.Decoder Creation := .struct fields unset

def toDoc (c : Creation) : Json.Doc :=
  .fields
    [("name", .text c.name), ("generation", .nat c.generation.toNat),
      ("vhd_path", .text c.diskPath), ("switch_name", .text c.switchName),
      ("processor_count", .nat c.processorCount.toNat),
      ("memory_startup_bytes", .nat c.memoryStartup.toNat), ("secure_boot", .bool c.secureBoot),
      ("enhanced_session_transport", .text c.transport.name)]

end Creation

end GuestControl.Machine
