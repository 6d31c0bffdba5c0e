import GuestControl.Toml.Decoder

/-!
# Structures are read part by part

A structure stands in a table or, by the order of its fields, in an array. Either way each
field is read from a part of its own: it is what this part states, or what it was before if
there is no such part. What else the table or the array holds is not looked at.
-/

namespace GuestControl.Toml

-- ---------------------------------------------------------------------------
-- What a tree states
-- ---------------------------------------------------------------------------

namespace Tree

def IsString (t : Tree) (s : String) : Prop := t = .string s

def IsNatural (t : Tree) (n : Nat) : Prop := ∃ i : Int64, t = .integer i ∧ i.toInt = n

/-- A structure can be read from anything but a string, a number or a truth value. A date
or time has no parts. -/
inductive IsStructure : Tree → Prop
  | table (origin : Origin) (ms : Members) : IsStructure (.table origin ms)
  | array (items : List Tree) : IsStructure (.array items)
  | tables (items : List Members) : IsStructure (.tables items)
  | moment : IsStructure .moment

/-- The part of a structure that belongs to a field: in a table the one under its key, in an
array the one in its place. -/
def part? (key : String) (place : Nat) : Tree → Option Tree
  | .table _ ms => ms.lookup key
  | .array items => items[place]?
  | .tables items => items[place]?.map (.table .header)
  | _ => none

end Tree

/-- A setting is what is given for it, or its default if nothing is given. -/
inductive Settles {α : Type} (Gives : Tree → α → Prop) (default : α) : Option Tree → α → Prop
  | absent : Settles Gives default none default
  | given {t : Tree} {a : α} : Gives t a → Settles Gives default (some t) a

variable {α σ : Type} {Gives : Tree → α → Prop} {default a : α} {t : Tree} {t? : Option Tree}
  {s s' initial : σ} {fields fs : List (Field σ)} {key : String} {set : σ → α → σ}
  {part? : String → Nat → Option Tree} {place : Nat}

theorem settles_none : Settles Gives default none a ↔ a = default := by
  constructor
  · rintro ⟨⟩
    rfl
  · rintro rfl
    exact .absent

theorem settles_some : Settles Gives default (some t) a ↔ Gives t a := by
  constructor
  · rintro (_ | h)
    exact h
  · exact .given

theorem exists_or_refused {P : Option Tree → α → Prop} (h : P none default) (t? : Option Tree) :
    (∃ a, P t? a) ∨ ∃ t, t? = some t ∧ ∀ a, ¬ P (some t) a := by
  cases t? with
  | none => exact .inl ⟨default, h⟩
  | some t => simpa using Classical.em (∃ a, P (some t) a)

namespace Decoder

theorem string_eq_some {x : String} : string t = some x ↔ t.IsString x := by
  cases t with
  | _ => simp [string, Tree.IsString]

theorem natural_eq_some {hold? : Nat → Option α} :
    natural hold? t = some a ↔ ∃ n, t.IsNatural n ∧ hold? n = some a := by
  cases t with
  | integer i => simp [natural, Tree.IsNatural, Option.bind_eq_some_iff, Word.nat?_eq_some]
  | _ => simp [natural, Tree.IsNatural]

theorem uint16_eq_some {x : UInt16} : uint16 t = some x ↔ t.IsNatural x.toNat := by
  simp [uint16, natural_eq_some, Word.uint16?_eq_some]

theorem uint64_eq_some {x : UInt64} : uint64 t = some x ↔ t.IsNatural x.toNat := by
  simp [uint64, natural_eq_some, Word.uint64?_eq_some]

-- ---------------------------------------------------------------------------
-- Fields
-- ---------------------------------------------------------------------------

def optional (d : Decoder α) (default : α) : Option Tree → Option α
  | none => some default
  | some t => d t

theorem optional_eq_some {d : Decoder α} (h : ∀ t a, d t = some a ↔ Gives t a) :
    d.optional default t? = some a ↔ Settles Gives default t? a := by
  cases t? with
  | none => simp [optional, settles_none, eq_comm]
  | some t => rw [optional, h, settles_some]

theorem optional_string_eq_some {x y : String} :
    string.optional x t? = some y ↔ Settles Tree.IsString x t? y :=
  optional_eq_some fun _ _ => string_eq_some

theorem optional_uint16_eq_some {x y : UInt16} :
    uint16.optional x t? = some y ↔ Settles (fun t n => t.IsNatural n.toNat) x t? y :=
  optional_eq_some fun _ _ => uint16_eq_some

theorem optional_uint64_eq_some {x y : UInt64} :
    uint64.optional x t? = some y ↔ Settles (fun t n => t.IsNatural n.toNat) x t? y :=
  optional_eq_some fun _ _ => uint64_eq_some

/-- Reads each field from its own part; `place` is the place of the first of them. -/
def parts (part? : String → Nat → Option Tree) (place : Nat) : List (Field σ) → σ → Option σ
  | [], s => some s
  | f :: fs, s =>
    (match part? f.key place with
      | none => some s
      | some t => f.put s t).bind (parts part? (place + 1) fs)

theorem parts_nil : parts part? place [] s = some s' ↔ s = s' := by
  rw [parts, Option.some.injEq]

theorem parts_cons {d : Decoder α} (get : σ → α) (h : set s (get s) = s) :
    parts part? place (.of key d set :: fs) s = some s' ↔
      ∃ a, d.optional (get s) (part? key place) = some a ∧
        parts part? (place + 1) fs (set s a) = some s' := by
  cases hpart : part? key place with
  | none => simp [parts, Field.of, hpart, optional, h]
  | some t =>
    simp only [parts, Field.of, hpart, optional, Option.bind_eq_some_iff, Option.map_eq_some_iff]
    constructor
    · rintro ⟨-, ⟨a, ha, rfl⟩, hrest⟩
      exact ⟨a, ha, hrest⟩
    · rintro ⟨a, ha, hrest⟩
      exact ⟨set s a, ⟨a, ha, rfl⟩, hrest⟩

theorem parts_absent (fields : List (Field σ)) (s : σ) (place : Nat) :
    parts (fun _ _ => none) place fields s = some s := by
  induction fields generalizing place with
  | nil => rfl
  | cons f fs ih => exact ih (place + 1)

theorem members_eq_parts (fields : List (Field σ)) (s : σ) (ms : Members) (place : Nat) :
    members fields s ms = parts (fun key _ => ms.lookup key) place fields s := by
  induction fields generalizing s place with
  | nil => rfl
  | cons f fs ih =>
    rw [members, List.foldlM_cons, parts]
    exact congrArg _ (funext fun s => ih s (place + 1))

theorem items_eq_parts (fields : List (Field σ)) (s : σ) (ts : List Tree) (place : Nat) :
    items s fields (ts.drop place) = parts (fun _ k => ts[k]?) place fields s := by
  induction fields generalizing s place with
  | nil => simp [items, parts]
  | cons f fs ih =>
    cases ht : ts[place]? with
    | none =>
      -- there are no places after the last
      have hend := List.getElem?_eq_none_iff.mp ht
      have hrest := ih s (place + 1)
      rw [List.drop_eq_nil_of_le (by omega)] at hrest
      simpa [List.drop_eq_nil_of_le hend, items, parts, ht] using hrest
    | some t =>
      obtain ⟨hlt, rfl⟩ := List.getElem?_eq_some_iff.mp ht
      rw [List.drop_eq_getElem_cons hlt, items, parts, ht]
      exact congrArg _ (funext fun s => ih s (place + 1))

theorem struct_eq_some : struct fields initial t = some s ↔
    t.IsStructure ∧ parts (fun key place => t.part? key place) 0 fields initial = some s := by
  cases t with
  | table origin ms =>
    rw [struct, members_eq_parts fields initial ms 0]
    exact (and_iff_right (.table origin ms)).symm
  | array ts =>
    have hitems := items_eq_parts fields initial ts 0
    rw [List.drop_zero] at hitems
    rw [struct, hitems]
    exact (and_iff_right (.array ts)).symm
  | tables mss =>
    have hitems := items_eq_parts fields initial (mss.map (.table .header)) 0
    simp only [List.drop_zero, List.getElem?_map] at hitems
    rw [struct, hitems]
    exact (and_iff_right (.tables mss)).symm
  | moment =>
    rw [struct, ← parts_absent fields initial 0]
    exact (and_iff_right .moment).symm
  | string _ | integer _ | float _ | bool _ => exact ⟨nofun, fun h => nomatch h.1⟩

theorem optional_struct_eq_some : (struct fields initial).optional initial t? = some s ↔
    (∀ t ∈ t?, t.IsStructure) ∧
      parts (fun key place => t?.bind (·.part? key place)) 0 fields initial = some s := by
  cases t? with
  | none => simp [optional, parts_absent]
  | some t => simp [optional, struct_eq_some]

end Decoder

end GuestControl.Toml
