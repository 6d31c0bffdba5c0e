import GuestControl.Machine.State
import GuestControl.Record.Schema

/-!
# Machines, checkpoints and the host

The objects that queries return, each with the schema that it is read by.
-/

namespace GuestControl

structure Machine where
  id : Guid := .nil
  name : String := ""
  state : Machine.State := .unknown
  processorCount : UInt32 := 0
  memoryMinimum : UInt64 := 0
  memoryMaximum : UInt64 := 0
  memoryStartup : UInt64 := 0
  parentCheckpointId : Option Guid := none
  parentCheckpointName : String := ""
  generation : UInt32 := 0
  path : String := ""
  computerName : String := ""
  deriving DecidableEq

namespace Machine

def text (m : Machine) : String := m.name ++ " (" ++ m.id.text ++ ")"

def schema : Schema Machine where
  blank := {}
  fields :=
    [.of "Id" Value.toGuid fun m x => { m with id := x },
      .of "Name" Value.toText fun m x => { m with name := x },
      .of "State" State.ofValue fun m x => { m with state := x },
      .of "ProcessorCount" Value.toUInt32 fun m x => { m with processorCount := x },
      .of "MemoryMinimum" Value.toUInt64 fun m x => { m with memoryMinimum := x },
      .of "MemoryMaximum" Value.toUInt64 fun m x => { m with memoryMaximum := x },
      .of "MemoryStartup" Value.toUInt64 fun m x => { m with memoryStartup := x },
      .of "ParentCheckpointId" Value.toOptionalGuid fun m x => { m with parentCheckpointId := x },
      .of "ParentCheckpointName" Value.toText fun m x => { m with parentCheckpointName := x },
      .of "Generation" Value.toUInt32 fun m x => { m with generation := x },
      .of "Path" Value.toText fun m x => { m with path := x },
      .of "ComputerName" Value.toText fun m x => { m with computerName := x }]

end Machine

structure Checkpoint where
  id : Guid := .nil
  name : String := ""
  parentCheckpointId : Option Guid := none
  parentCheckpointName : String := ""
  deriving DecidableEq

def Checkpoint.schema : Schema Checkpoint where
  blank := {}
  fields :=
    [.of "Id" Value.toGuid fun c x => { c with id := x },
      .of "Name" Value.toText fun c x => { c with name := x },
      .of "ParentCheckpointId" Value.toOptionalGuid fun c x => { c with parentCheckpointId := x },
      .of "ParentCheckpointName" Value.toText fun c x => { c with parentCheckpointName := x }]

structure Host where
  computerName : String := ""
  machinePath : String := ""
  diskPath : String := ""
  logicalProcessorCount : UInt32 := 0
  memoryCapacity : UInt64 := 0
  deriving DecidableEq

def Host.schema : Schema Host where
  blank := {}
  fields :=
    [.of "ComputerName" Value.toText fun h x => { h with computerName := x },
      .of "VirtualMachinePath" Value.toText fun h x => { h with machinePath := x },
      .of "VirtualHardDiskPath" Value.toText fun h x => { h with diskPath := x },
      .of "LogicalProcessorCount" Value.toUInt32 fun h x => { h with logicalProcessorCount := x },
      .of "MemoryCapacity" Value.toUInt64 fun h x => { h with memoryCapacity := x }]

end GuestControl
