import GuestControl.Proofs.Record.Reading
import Mathlib.Data.List.Forall2

/-!
# Objects are read member by member

The fields of an object come from the members in a table. A record can be read
exactly if each of these members is absent, null or converts; then each field is what
its own member converts to. Else the first member in the order of the table that does
not convert is told. What a record holds besides, and the order in which its members
were put there, is of no account.
-/

namespace GuestControl

def failure? {ε α : Type} : Except ε α → Option ε
  | .ok _ => none
  | .error e => some e

-- ---------------------------------------------------------------------------
-- Maps from pairs
-- ---------------------------------------------------------------------------

namespace SortedMap

variable {κ α : Type} [DecidableEq κ] {before : κ → κ → Bool} {pairs pairs' : List (κ × α)}
  {k : κ} {v : α}

theorem find?_foldl_insert (m : SortedMap κ α) (hkeys : (pairs.map Prod.fst).Nodup) :
    find? (pairs.foldl (fun m p => insert before m p.1 p.2) m) k = some v ↔
      (k, v) ∈ pairs ∨ k ∉ pairs.map Prod.fst ∧ find? m k = some v := by
  induction pairs generalizing m with
  | nil => simp
  | cons p pairs ih =>
    obtain ⟨hp, hrest⟩ := List.nodup_cons.mp hkeys
    rw [List.foldl_cons, ih _ hrest]
    by_cases hk : k = p.1
    · subst hk
      have habsent : (p.1, v) ∉ pairs := fun h => hp (List.mem_map.mpr ⟨_, h, rfl⟩)
      simp [find?_insert_self, hp, habsent, Prod.ext_iff, eq_comm]
    · simp [find?_insert_of_ne _ _ _ hk, hk, Prod.ext_iff]

theorem find?_ofPairs (hkeys : (pairs.map Prod.fst).Nodup) :
    find? (ofPairs before pairs) k = some v ↔ (k, v) ∈ pairs := by
  simp [ofPairs, find?_foldl_insert [] hkeys, find?]

theorem find?_ofPairs_perm (hperm : pairs.Perm pairs') (hkeys : (pairs.map Prod.fst).Nodup) :
    find? (ofPairs before pairs) k = find? (ofPairs before pairs') k := by
  refine Option.ext fun v => ?_
  rw [find?_ofPairs hkeys, find?_ofPairs ((hperm.map Prod.fst).nodup_iff.mp hkeys),
    hperm.mem_iff]

end SortedMap

-- ---------------------------------------------------------------------------
-- Tables
-- ---------------------------------------------------------------------------

namespace Schema

structure Member where
  name : String
  mismatch? : Value → Option Mismatch

namespace Member

def of {α : Type} (name : String) (convert : Value → Except Mismatch α) : Member :=
  ⟨name, fun v => failure? (convert v)⟩

/-- The member is absent or null, or it converts. -/
def Fits (p : Member) (r : Record) : Prop :=
  ∀ v, r.get? p.name = some v → v = .null ∨ p.mismatch? v = none

def Fails (p : Member) (r : Record) (m : Mismatch) : Prop :=
  ∃ v, r.get? p.name = some v ∧ v ≠ .null ∧ p.mismatch? v = some m

def error? (p : Member) (r : Record) : Option Error :=
  ((given r p.name).bind p.mismatch?).map (.ofMismatch p.name)

end Member

variable {σ α : Type} {schema : Schema σ} {members : List Member} {r r' : Record} {p : Member}
  {e : Error} {name : String} {v : Value}

theorem isNull_eq_false : v.isNull = false ↔ v ≠ .null := by
  cases v with
  | null => simp [Value.isNull]
  | _ => simp [Value.isNull]

theorem Member.error?_eq_none : p.error? r = none ↔ p.Fits r := by
  simp only [error?, Option.map_eq_none_iff, Option.bind_eq_none_iff, given_eq_some, Fits,
    isNull_eq_false, and_imp, or_iff_not_imp_left]

theorem Member.error?_eq_some :
    p.error? r = some e ↔ ∃ m, p.Fails r m ∧ e = .ofMismatch p.name m := by
  simp only [error?, Option.map_eq_some_iff, Option.bind_eq_some_iff, given_eq_some, Fails,
    isNull_eq_false]
  constructor
  · rintro ⟨m, ⟨v, ⟨hv, hnull⟩, hm⟩, rfl⟩
    exact ⟨m, ⟨v, hv, hnull, hm⟩, rfl⟩
  · rintro ⟨m, ⟨v, hv, hnull, hm⟩, rfl⟩
    exact ⟨m, ⟨v, ⟨hv, hnull⟩, hm⟩, rfl⟩

def Tabled (fields : List (Field σ)) (members : List Member) : Prop :=
  List.Forall₂ (fun f p => f.name = p.name ∧ ∀ x v, failure? (f.put x v) = p.mismatch? v)
    fields members

theorem tabled_of (name : String) (convert : Value → Except Mismatch α) (set : σ → α → σ) :
    (Field.of name convert set).name = (Member.of name convert).name ∧
      ∀ x v, failure? ((Field.of name convert set).put x v) =
        (Member.of name convert).mismatch? v := by
  refine ⟨rfl, fun x v => ?_⟩
  simp only [Field.of, Member.of]
  cases convert v with
  | _ => rfl

/-- Reading goes wrong with the first member that does not convert. -/
theorem failure?_readInto {fields : List (Field σ)} (h : Tabled fields members) (x : σ) :
    failure? (readInto r x fields) = members.findSome? (·.error? r) := by
  induction h generalizing x with
  | nil => rfl
  | @cons f p fields members hfield _ ih =>
    obtain ⟨hname, hput⟩ := hfield
    rw [List.findSome?_cons, Member.error?, ← hname]
    cases hgiven : given r f.name with
    | none =>
      simp only [readInto, hgiven, Option.bind_none, Option.map_none]
      exact ih x
    | some v =>
      simp only [Option.bind_some, ← hput x v]
      cases hconvert : f.put x v with
      | ok y =>
        simp only [readInto, hgiven, hconvert, failure?, Option.map_none]
        exact ih y
      | error m =>
        simp only [readInto, hgiven, hconvert, failure?, Option.map_some]

theorem read_eq_error (h : Tabled schema.fields members) : schema.read r = .error e ↔
    ∃ before p after m, members = before ++ p :: after ∧ (∀ q ∈ before, q.Fits r) ∧
      p.Fails r m ∧ e = .materialization p.name m.expected m.found := by
  have hfailure : schema.read r = .error e ↔ failure? (schema.read r) = some e := by
    cases schema.read r with
    | _ => simp [failure?]
  rw [hfailure, read, failure?_readInto h, List.findSome?_eq_some_iff]
  simp only [Member.error?_eq_none, Member.error?_eq_some]
  constructor
  · rintro ⟨before, p, after, hmembers, ⟨m, hfails, rfl⟩, hbefore⟩
    exact ⟨before, p, after, m, hmembers, hbefore, hfails, rfl⟩
  · rintro ⟨before, p, after, m, hmembers, hbefore, hfails, rfl⟩
    exact ⟨before, p, after, hmembers, ⟨m, hfails, rfl⟩, hbefore⟩

theorem exists_read (h : Tabled schema.fields members) :
    (∃ x, schema.read r = .ok x) ↔ ∀ p ∈ members, p.Fits r := by
  have hfailure : (∃ x, schema.read r = .ok x) ↔ failure? (schema.read r) = none := by
    cases schema.read r with
    | _ => simp [failure?]
  rw [hfailure, read, failure?_readInto h, List.findSome?_eq_none_iff]
  simp only [Member.error?_eq_none]

-- ---------------------------------------------------------------------------
-- Records that agree
-- ---------------------------------------------------------------------------

/-- An absent member is as good as one that is null. -/
def Agree (members : List Member) (r r' : Record) : Prop :=
  ∀ p ∈ members, (r.get? p.name).getD .null = (r'.get? p.name).getD .null

theorem given_congr (h : (r.get? name).getD .null = (r'.get? name).getD .null) :
    given r name = given r' name := by
  have hgiven (r : Record) :
      given r name = (some ((r.get? name).getD .null)).filter (!·.isNull) := by
    cases hr : r.get? name with
    | none => rw [given, hr]; rfl
    | some v => rw [given, hr, Option.getD_some]
  rw [hgiven r, hgiven r', h]

theorem readInto_congr {fields : List (Field σ)}
    (h : ∀ f ∈ fields, given r f.name = given r' f.name) (x : σ) :
    readInto r x fields = readInto r' x fields := by
  induction fields generalizing x with
  | nil => rfl
  | cons f fields ih =>
    have ih := ih fun f' hf' => h f' (List.mem_cons_of_mem f hf')
    simp only [readInto, h f List.mem_cons_self, ih]

theorem read_congr (h : Tabled schema.fields members) (hagree : Agree members r r') :
    schema.read r = schema.read r' := by
  refine readInto_congr (fun f hf => given_congr ?_) schema.blank
  obtain ⟨i, hi, rfl⟩ := List.getElem_of_mem hf
  have hlength := h.length_eq
  obtain ⟨hname, -⟩ := h.get (i := i) hi (hlength ▸ hi)
  exact hname ▸ hagree _ (List.getElem_mem _)

-- ---------------------------------------------------------------------------
-- What is read by a table
-- ---------------------------------------------------------------------------

/-- What is read by a table of members; `Reading` says of each field where it comes from. -/
structure ReadsBy (schema : Schema σ) (members : List Member) (Reading : Record → σ → Prop) :
    Prop where
  ok_iff : ∀ r x, schema.read r = .ok x ↔ Reading r x
  readable_iff : ∀ r, (∃ x, schema.read r = .ok x) ↔ ∀ p ∈ members, p.Fits r
  error_iff : ∀ r e, schema.read r = .error e ↔
    ∃ before p after m, members = before ++ p :: after ∧ (∀ q ∈ before, q.Fits r) ∧
      p.Fails r m ∧ e = .materialization p.name m.expected m.found
  congr : ∀ r r', Agree members r r' → schema.read r = schema.read r'
  perm : ∀ ms ms' : List (String × Value), ms.Perm ms' → (ms.map (·.1)).Nodup →
    schema.read (.ofMembers ms) = schema.read (.ofMembers ms')
  readAll : ∀ rs, List.Forall₂ (fun r x => schema.read r = .ok x)
    (rs.filter fun r => (schema.read r).isOk) (schema.readAll rs)
  skip : ∀ before r after e, schema.read r = .error e →
    schema.readAll (before ++ r :: after) = schema.readAll (before ++ after)

theorem readAll_reads (schema : Schema σ) (rs : List Record) :
    List.Forall₂ (fun r x => schema.read r = .ok x)
      (rs.filter fun r => (schema.read r).isOk) (schema.readAll rs) := by
  induction rs with
  | nil => exact .nil
  | cons r rs ih =>
    cases hread : schema.read r with
    | ok x => simpa [readAll, hread, Except.isOk, Except.toBool, Except.toOption] using ih
    | error e => simpa [readAll, hread, Except.isOk, Except.toBool, Except.toOption] using ih

variable {convert : Value → Except Mismatch α} {was a b : α} {Reading : Record → σ → Prop}

theorem Reads.unique (h : Reads r name convert was a) (h' : Reads r name convert was b) :
    a = b := by
  obtain ⟨hnone, rfl⟩ | ⟨v, hv, hconvert⟩ := h
  · obtain ⟨-, rfl⟩ | ⟨v, hv, -⟩ := h'
    · rfl
    · cases hnone.symm.trans hv
  · obtain ⟨hnone, -⟩ | ⟨v', hv', hconvert'⟩ := h'
    · cases hnone.symm.trans hv
    · obtain rfl := Option.some.inj (hv.symm.trans hv')
      exact Except.ok.inj (hconvert.symm.trans hconvert')

theorem Reads.fits (h : Reads r name convert was a) : (Member.of name convert).Fits r := by
  rw [← Member.error?_eq_none, Member.error?, Member.of]
  obtain ⟨hnone, -⟩ | ⟨v, hv, hconvert⟩ := h
  · simp [hnone]
  · simp [hv, hconvert, failure?]

/-- It is enough that the fields are put from the members in the table, that each
field of an object that is read comes from its member, and that there is no other field. -/
theorem ReadsBy.of_tabled (htabled : Tabled schema.fields members)
    (hreading : ∀ {r x}, schema.read r = .ok x → Reading r x)
    (hfits : ∀ {r x}, Reading r x → ∀ p ∈ members, p.Fits r)
    (hunique : ∀ {r x y}, Reading r x → Reading r y → x = y) :
    ReadsBy schema members Reading where
  ok_iff r x := by
    refine ⟨hreading, fun h => ?_⟩
    obtain ⟨y, hy⟩ := (exists_read htabled).mpr (hfits h)
    rw [hy, hunique h (hreading hy)]
  readable_iff _ := exists_read htabled
  error_iff _ _ := read_eq_error htabled
  congr _ _ hagree := read_congr htabled hagree
  perm ms ms' hperm hkeys := by
    refine read_congr htabled fun p _ => congrArg (Option.getD · Value.null) ?_
    exact SortedMap.find?_ofPairs_perm hperm hkeys
  readAll := readAll_reads schema
  skip _ _ _ _ h := readAll_skip h

end Schema

-- ---------------------------------------------------------------------------
-- The three kinds of objects
-- ---------------------------------------------------------------------------

open Schema (Member Tabled tabled_of ReadsBy)

def Machine.members : List Member :=
  [.of "Id" Value.toGuid, .of "Name" Value.toText, .of "State" State.ofValue,
    .of "ProcessorCount" Value.toUInt32, .of "MemoryMinimum" Value.toUInt64,
    .of "MemoryMaximum" Value.toUInt64, .of "MemoryStartup" Value.toUInt64,
    .of "ParentCheckpointId" Value.toOptionalGuid, .of "ParentCheckpointName" Value.toText,
    .of "Generation" Value.toUInt32, .of "Path" Value.toText, .of "ComputerName" Value.toText]

def Checkpoint.members : List Member :=
  [.of "Id" Value.toGuid, .of "Name" Value.toText,
    .of "ParentCheckpointId" Value.toOptionalGuid, .of "ParentCheckpointName" Value.toText]

def Host.members : List Member :=
  [.of "ComputerName" Value.toText, .of "VirtualMachinePath" Value.toText,
    .of "VirtualHardDiskPath" Value.toText, .of "LogicalProcessorCount" Value.toUInt32,
    .of "MemoryCapacity" Value.toUInt64]

theorem Machine.tabled : Tabled schema.fields members :=
  .cons (tabled_of ..) <| .cons (tabled_of ..) <| .cons (tabled_of ..) <| .cons (tabled_of ..) <|
  .cons (tabled_of ..) <| .cons (tabled_of ..) <| .cons (tabled_of ..) <| .cons (tabled_of ..) <|
  .cons (tabled_of ..) <| .cons (tabled_of ..) <| .cons (tabled_of ..) <| .cons (tabled_of ..) .nil

theorem Checkpoint.tabled : Tabled schema.fields members :=
  .cons (tabled_of ..) <| .cons (tabled_of ..) <| .cons (tabled_of ..) <| .cons (tabled_of ..) .nil

theorem Host.tabled : Tabled schema.fields members :=
  .cons (tabled_of ..) <| .cons (tabled_of ..) <| .cons (tabled_of ..) <| .cons (tabled_of ..) <|
  .cons (tabled_of ..) .nil

theorem Machine.ReadFrom.fits {r : Record} {m : Machine} (h : m.ReadFrom r) :
    ∀ p ∈ members, p.Fits r := by
  simp only [members, List.forall_mem_cons]
  exact ⟨h.id.fits, h.name.fits, h.state.fits, h.processorCount.fits, h.memoryMinimum.fits,
    h.memoryMaximum.fits, h.memoryStartup.fits, h.parentCheckpointId.fits,
    h.parentCheckpointName.fits, h.generation.fits, h.path.fits, h.computerName.fits, nofun⟩

theorem Checkpoint.ReadFrom.fits {r : Record} {c : Checkpoint} (h : c.ReadFrom r) :
    ∀ p ∈ members, p.Fits r := by
  simp only [members, List.forall_mem_cons]
  exact ⟨h.id.fits, h.name.fits, h.parentCheckpointId.fits, h.parentCheckpointName.fits, nofun⟩

theorem Host.ReadFrom.fits {r : Record} {x : Host} (h : x.ReadFrom r) :
    ∀ p ∈ members, p.Fits r := by
  simp only [members, List.forall_mem_cons]
  exact ⟨h.computerName.fits, h.machinePath.fits, h.diskPath.fits, h.logicalProcessorCount.fits,
    h.memoryCapacity.fits, nofun⟩

theorem Machine.ReadFrom.unique {r : Record} {m m' : Machine} (h : m.ReadFrom r)
    (h' : m'.ReadFrom r) : m = m' := by
  cases m
  cases m'
  rw [mk.injEq]
  exact ⟨h.id.unique h'.id, h.name.unique h'.name, h.state.unique h'.state,
    h.processorCount.unique h'.processorCount, h.memoryMinimum.unique h'.memoryMinimum,
    h.memoryMaximum.unique h'.memoryMaximum, h.memoryStartup.unique h'.memoryStartup,
    h.parentCheckpointId.unique h'.parentCheckpointId,
    h.parentCheckpointName.unique h'.parentCheckpointName, h.generation.unique h'.generation,
    h.path.unique h'.path, h.computerName.unique h'.computerName⟩

theorem Checkpoint.ReadFrom.unique {r : Record} {c c' : Checkpoint} (h : c.ReadFrom r)
    (h' : c'.ReadFrom r) : c = c' := by
  cases c
  cases c'
  rw [mk.injEq]
  exact ⟨h.id.unique h'.id, h.name.unique h'.name,
    h.parentCheckpointId.unique h'.parentCheckpointId,
    h.parentCheckpointName.unique h'.parentCheckpointName⟩

theorem Host.ReadFrom.unique {r : Record} {x y : Host} (h : x.ReadFrom r) (h' : y.ReadFrom r) :
    x = y := by
  cases x
  cases y
  rw [mk.injEq]
  exact ⟨h.computerName.unique h'.computerName, h.machinePath.unique h'.machinePath,
    h.diskPath.unique h'.diskPath, h.logicalProcessorCount.unique h'.logicalProcessorCount,
    h.memoryCapacity.unique h'.memoryCapacity⟩

/-- Machines, checkpoints and hosts are read by their tables. -/
theorem read_member_by_member :
    ReadsBy Machine.schema Machine.members Machine.ReadFrom ∧
    ReadsBy Checkpoint.schema Checkpoint.members Checkpoint.ReadFrom ∧
    ReadsBy Host.schema Host.members Host.ReadFrom :=
  ⟨.of_tabled Machine.tabled Machine.readFrom Machine.ReadFrom.fits Machine.ReadFrom.unique,
    .of_tabled Checkpoint.tabled Checkpoint.readFrom Checkpoint.ReadFrom.fits
      Checkpoint.ReadFrom.unique,
    .of_tabled Host.tabled Host.readFrom Host.ReadFrom.fits Host.ReadFrom.unique⟩

/-- Of two members that do not convert the one that is first in the table is told, though
the other stands first in the record. -/
theorem read_member_by_member_two_faults :
    Machine.schema.read ⟨[("MemoryMinimum", .string "large"), ("State", .bool true)]⟩ =
      .error (.materialization "State" "vm state" "bool true") := by
  refine (read_member_by_member.1.error_iff _ _).mpr
    ⟨Machine.members.take 2, _, Machine.members.drop 3, .of "vm state" (.bool true), rfl, ?_,
      ⟨.bool true, rfl, nofun, rfl⟩, rfl⟩
  intro q hq v hv
  simp only [Machine.members, List.take, List.mem_cons, List.not_mem_nil, or_false] at hq
  obtain rfl | rfl := hq
  · cases hv
  · cases hv

end GuestControl
