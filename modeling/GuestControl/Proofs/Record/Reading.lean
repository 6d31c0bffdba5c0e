import GuestControl.Machine.Basic

/-!
# What a record is read as

Each field of an object has a member of the record to itself. If the object can
be read, the field is what the member converts to, or what it is in a new object
where the member is absent or null.
-/

namespace GuestControl

theorem Value.expecting_eq_ok {α : Type} {expected : String} {v : Value} {a? : Option α} {a : α} :
    v.expecting expected a? = .ok a ↔ a? = some a := by
  cases a? with
  | _ => simp [expecting]

theorem Value.signed_of_toInt64 {v : Value} {w : Int64} (h : v.toInt64 = .ok w) :
    v.signed? = some w.toInt := by
  rw [toInt64_eq] at h
  obtain ⟨i, hi, hword⟩ := Option.bind_eq_some_iff.mp (expecting_eq_ok.mp h)
  rw [hi, Word.toInt_of_int64? hword]

namespace Schema

variable {σ α : Type} {schema : Schema σ} {rs before after : List Record} {r : Record} {x y : σ}
  {name : String} {v : Value}

theorem given_eq_some : given r name = some v ↔ r.get? name = some v ∧ v.isNull = false := by
  simp [given, Option.filter_eq_some_iff]

theorem given_eq_none : given r name = none ↔ ∀ v, r.get? name = some v → v.isNull = true := by
  simp [given, Option.filter_eq_none_iff]

/-- A field is what its member converts to, or stays as it was. -/
def Reads (r : Record) (name : String) (convert : Value → Except Mismatch α) (was a : α) : Prop :=
  given r name = none ∧ a = was ∨ ∃ v, given r name = some v ∧ convert v = .ok a

theorem readInto_of {convert : Value → Except Mismatch α} {set : σ → α → σ} (get : σ → α)
    {fields : List (Field σ)} (hset : set x (get x) = x)
    (h : readInto r x (.of name convert set :: fields) = .ok y) :
    ∃ a, Reads r name convert (get x) a ∧ readInto r (set x a) fields = .ok y := by
  cases hgiven : given r name with
  | none =>
    simp only [readInto, Field.of, hgiven] at h
    exact ⟨get x, .inl ⟨hgiven, rfl⟩, hset.symm ▸ h⟩
  | some v =>
    cases hconvert : convert v with
    | error m =>
      simp only [readInto, Field.of, hgiven, hconvert, Except.map] at h
      cases h
    | ok a =>
      simp only [readInto, Field.of, hgiven, hconvert, Except.map] at h
      exact ⟨a, .inr ⟨v, hgiven, hconvert⟩, h⟩

theorem toOption_read : (schema.read r).toOption = some x ↔ schema.read r = .ok x := by
  cases schema.read r with
  | _ => simp [Except.toOption]

theorem mem_readAll : x ∈ schema.readAll rs ↔ ∃ r ∈ rs, schema.read r = .ok x := by
  simp only [readAll, List.mem_filterMap, toOption_read]

theorem readAll_skip {e : Error} (h : schema.read r = .error e) :
    schema.readAll (before ++ r :: after) = schema.readAll (before ++ after) := by
  simp [readAll, List.filterMap_append, h, Except.toOption]

end Schema

open Schema (Reads readInto_of)

structure Machine.ReadFrom (r : Record) (m : Machine) : Prop where
  id : Reads r "Id" Value.toGuid .nil m.id
  name : Reads r "Name" Value.toText "" m.name
  state : Reads r "State" State.ofValue .unknown m.state
  processorCount : Reads r "ProcessorCount" Value.toUInt32 0 m.processorCount
  memoryMinimum : Reads r "MemoryMinimum" Value.toUInt64 0 m.memoryMinimum
  memoryMaximum : Reads r "MemoryMaximum" Value.toUInt64 0 m.memoryMaximum
  memoryStartup : Reads r "MemoryStartup" Value.toUInt64 0 m.memoryStartup
  parentCheckpointId :
    Reads r "ParentCheckpointId" Value.toOptionalGuid none m.parentCheckpointId
  parentCheckpointName : Reads r "ParentCheckpointName" Value.toText "" m.parentCheckpointName
  generation : Reads r "Generation" Value.toUInt32 0 m.generation
  path : Reads r "Path" Value.toText "" m.path
  computerName : Reads r "ComputerName" Value.toText "" m.computerName

theorem Machine.readFrom {r : Record} {m : Machine} (h : schema.read r = .ok m) :
    m.ReadFrom r := by
  obtain ⟨_, hid, h⟩ := readInto_of Machine.id rfl h
  obtain ⟨_, hname, h⟩ := readInto_of Machine.name rfl h
  obtain ⟨_, hstate, h⟩ := readInto_of Machine.state rfl h
  obtain ⟨_, hprocessors, h⟩ := readInto_of Machine.processorCount rfl h
  obtain ⟨_, hminimum, h⟩ := readInto_of Machine.memoryMinimum rfl h
  obtain ⟨_, hmaximum, h⟩ := readInto_of Machine.memoryMaximum rfl h
  obtain ⟨_, hstartup, h⟩ := readInto_of Machine.memoryStartup rfl h
  obtain ⟨_, hparent, h⟩ := readInto_of Machine.parentCheckpointId rfl h
  obtain ⟨_, hparentName, h⟩ := readInto_of Machine.parentCheckpointName rfl h
  obtain ⟨_, hgeneration, h⟩ := readInto_of Machine.generation rfl h
  obtain ⟨_, hpath, h⟩ := readInto_of Machine.path rfl h
  obtain ⟨_, hcomputer, h⟩ := readInto_of Machine.computerName rfl h
  cases h
  exact ⟨hid, hname, hstate, hprocessors, hminimum, hmaximum, hstartup, hparent, hparentName,
    hgeneration, hpath, hcomputer⟩

structure Checkpoint.ReadFrom (r : Record) (c : Checkpoint) : Prop where
  id : Reads r "Id" Value.toGuid .nil c.id
  name : Reads r "Name" Value.toText "" c.name
  parentCheckpointId :
    Reads r "ParentCheckpointId" Value.toOptionalGuid none c.parentCheckpointId
  parentCheckpointName : Reads r "ParentCheckpointName" Value.toText "" c.parentCheckpointName

theorem Checkpoint.readFrom {r : Record} {c : Checkpoint} (h : schema.read r = .ok c) :
    c.ReadFrom r := by
  obtain ⟨_, hid, h⟩ := readInto_of Checkpoint.id rfl h
  obtain ⟨_, hname, h⟩ := readInto_of Checkpoint.name rfl h
  obtain ⟨_, hparent, h⟩ := readInto_of Checkpoint.parentCheckpointId rfl h
  obtain ⟨_, hparentName, h⟩ := readInto_of Checkpoint.parentCheckpointName rfl h
  cases h
  exact ⟨hid, hname, hparent, hparentName⟩

structure Host.ReadFrom (r : Record) (h : Host) : Prop where
  computerName : Reads r "ComputerName" Value.toText "" h.computerName
  machinePath : Reads r "VirtualMachinePath" Value.toText "" h.machinePath
  diskPath : Reads r "VirtualHardDiskPath" Value.toText "" h.diskPath
  logicalProcessorCount :
    Reads r "LogicalProcessorCount" Value.toUInt32 0 h.logicalProcessorCount
  memoryCapacity : Reads r "MemoryCapacity" Value.toUInt64 0 h.memoryCapacity

theorem Host.readFrom {r : Record} {x : Host} (h : schema.read r = .ok x) : x.ReadFrom r := by
  obtain ⟨_, hcomputer, h⟩ := readInto_of Host.computerName rfl h
  obtain ⟨_, hmachines, h⟩ := readInto_of Host.machinePath rfl h
  obtain ⟨_, hdisks, h⟩ := readInto_of Host.diskPath rfl h
  obtain ⟨_, hprocessors, h⟩ := readInto_of Host.logicalProcessorCount rfl h
  obtain ⟨_, hmemory, h⟩ := readInto_of Host.memoryCapacity rfl h
  cases h
  exact ⟨hcomputer, hmachines, hdisks, hprocessors, hmemory⟩

end GuestControl
