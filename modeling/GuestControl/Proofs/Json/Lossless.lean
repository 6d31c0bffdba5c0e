import GuestControl.Proofs.Json.Integers

/-!
# Nothing is lost between JSON and values

The JSON value can be recovered from what it is converted to (`Value.toJson?_ofJson`), so
different ones stay different. What stands in some place of it, at any depth, is converted
to what stands in the same place of the value (`Value.at?_ofJson`): items by their number,
members by their exact name. Integers that 64 bits can hold are kept apart from doubles.
-/

namespace GuestControl

open Json (Literal Number)

-- ---------------------------------------------------------------------------
-- Recovery
-- ---------------------------------------------------------------------------

namespace Value

mutual

/-- The JSON value that a value is converted from. There is none if it holds a GUID. -/
def toJson? : Value → Option Json
  | null => some .null
  | bool b => some (.bool b)
  | int i => some (.number (.integer i))
  | uint n => some (.number (.large n))
  | float x => some (.number (.real x))
  | string s => some (.string s)
  | guid _ => none
  | record members => (toJsonMembers? members).map .object
  | list items => (toJsonItems? items).map .array

def toJsonItems? : List Value → Option (List Json)
  | [] => some []
  | v :: rest =>
    match toJson? v, toJsonItems? rest with
    | some j, some js => some (j :: js)
    | _, _ => none

def toJsonMembers? : List (String × Value) → Option (List (String × Json))
  | [] => some []
  | (k, v) :: rest =>
    match toJson? v, toJsonMembers? rest with
    | some j, some js => some ((k, j) :: js)
    | _, _ => none

end

mutual

theorem toJson?_ofJson : ∀ j : Json, (ofJson j).toJson? = some j
  | .null | .bool _ | .string _ => rfl
  | .number n => by
    cases n with
    | _ => rfl
  | .array items => by rw [ofJson, toJson?, toJsonItems?_ofJsonItems items, Option.map_some]
  | .object members => by
    rw [ofJson, toJson?, toJsonMembers?_ofJsonMembers members, Option.map_some]

theorem toJsonItems?_ofJsonItems : ∀ items : List Json, toJsonItems? (ofJsonItems items) = some items
  | [] => rfl
  | j :: rest => by
    rw [ofJsonItems, toJsonItems?, toJson?_ofJson j, toJsonItems?_ofJsonItems rest]

theorem toJsonMembers?_ofJsonMembers :
    ∀ members : List (String × Json), toJsonMembers? (ofJsonMembers members) = some members
  | [] => rfl
  | (k, j) :: rest => by
    rw [ofJsonMembers, toJsonMembers?, toJson?_ofJson j, toJsonMembers?_ofJsonMembers rest]

end

theorem ofJson_injective : Function.Injective ofJson := by
  intro j j' h
  rw [← Option.some.injEq, ← toJson?_ofJson j, ← toJson?_ofJson j', h]

end Value

-- ---------------------------------------------------------------------------
-- Equality
-- ---------------------------------------------------------------------------

/-- Equality of doubles: zeros are equal whatever their sign, and NaN equals nothing. -/
def Binary64.same : Binary64 → Binary64 → Bool
  | infinite s, infinite t => s == t
  | finite s u, finite t v => u == v && (s == t || u == 0)
  | _, _ => false

def Json.Number.same : Number → Number → Bool
  | integer i, integer j => i == j
  | large m, large n => m == n
  | real x, real y => x.same y
  | _, _ => false

namespace Json

mutual

/-- Equality of JSON values, where numbers are compared as numbers of one kind. -/
def same : Json → Json → Bool
  | null, null => true
  | bool a, bool b => a == b
  | number m, number n => m.same n
  | string s, string t => s == t
  | array items, array items' => sameItems items items'
  | object members, object members' => sameMembers members members'
  | _, _ => false

def sameItems : List Json → List Json → Bool
  | [], [] => true
  | j :: rest, j' :: rest' => same j j' && sameItems rest rest'
  | _, _ => false

def sameMembers : List (String × Json) → List (String × Json) → Bool
  | [], [] => true
  | (k, j) :: rest, (k', j') :: rest' => k == k' && same j j' && sameMembers rest rest'
  | _, _ => false

end

end Json

namespace Value

mutual

/-- Equality of values: the kinds are the same, and doubles are compared as numbers. -/
def same : Value → Value → Bool
  | null, null => true
  | bool a, bool b => a == b
  | int i, int j => i == j
  | uint m, uint n => m == n
  | float x, float y => x.same y
  | string s, string t => s == t
  | guid g, guid h => g == h
  | record members, record members' => sameMembers members members'
  | list items, list items' => sameItems items items'
  | _, _ => false

def sameItems : List Value → List Value → Bool
  | [], [] => true
  | v :: rest, v' :: rest' => same v v' && sameItems rest rest'
  | _, _ => false

def sameMembers : List (String × Value) → List (String × Value) → Bool
  | [], [] => true
  | (k, v) :: rest, (k', v') :: rest' => k == k' && same v v' && sameMembers rest rest'
  | _, _ => false

end

theorem same_ofJson_number (m n : Number) :
    (ofJson (.number m)).same (ofJson (.number n)) = m.same n := by
  cases m with
  | _ =>
    cases n with
    | _ => rfl

mutual

theorem same_ofJson : ∀ j j' : Json, (ofJson j).same (ofJson j') = j.same j'
  | .number m, j' => by
    cases j' with
    | number n => exact same_ofJson_number m n
    | _ =>
      cases m with
      | _ => rfl
  | .array items, j' => by
    cases j' with
    | array items' => exact sameItems_ofJsonItems items items'
    | number n =>
      cases n with
      | _ => rfl
    | _ => rfl
  | .object members, j' => by
    cases j' with
    | object members' => exact sameMembers_ofJsonMembers members members'
    | number n =>
      cases n with
      | _ => rfl
    | _ => rfl
  | .null, j' | .bool _, j' | .string _, j' => by
    cases j' with
    | number n =>
      cases n with
      | _ => rfl
    | _ => rfl

theorem sameItems_ofJsonItems : ∀ items items' : List Json,
    sameItems (ofJsonItems items) (ofJsonItems items') = Json.sameItems items items'
  | [], [] | [], _ :: _ | _ :: _, [] => rfl
  | j :: rest, j' :: rest' => by
    rw [ofJsonItems, ofJsonItems, sameItems, Json.sameItems, same_ofJson j j',
      sameItems_ofJsonItems rest rest']

theorem sameMembers_ofJsonMembers : ∀ members members' : List (String × Json),
    sameMembers (ofJsonMembers members) (ofJsonMembers members') =
      Json.sameMembers members members'
  | [], [] | [], _ :: _ | _ :: _, [] => rfl
  | (k, j) :: rest, (k', j') :: rest' => by
    rw [ofJsonMembers, ofJsonMembers, sameMembers, Json.sameMembers, same_ofJson j j',
      sameMembers_ofJsonMembers rest rest']

end

end Value

-- ---------------------------------------------------------------------------
-- Places
-- ---------------------------------------------------------------------------

theorem Value.ofJsonItems_eq_map (items : List Json) : ofJsonItems items = items.map ofJson := by
  induction items with
  | nil => rfl
  | cons j rest ih => rw [ofJsonItems, List.map_cons, ih]

theorem Value.names_ofJsonMembers (members : List (String × Json)) :
    (ofJsonMembers members).map Prod.fst = members.map Prod.fst := by
  induction members with
  | nil => rfl
  | cons m rest ih => rw [ofJsonMembers, List.map_cons, List.map_cons, ih]

inductive Json.Place where
  | item (number : Nat)
  | member (name : String)

def Json.at? : List Place → Json → Option Json
  | [], j => some j
  | .item i :: path, .array items => items[i]?.bind (at? path)
  | .member name :: path, .object members => (SortedMap.find? members name).bind (at? path)
  | _ :: _, _ => none

def Value.at? : List Json.Place → Value → Option Value
  | [], v => some v
  | .item i :: path, .list items => items[i]?.bind (at? path)
  | .member name :: path, .record members => (Record.get? ⟨members⟩ name).bind (at? path)
  | _ :: _, _ => none

theorem Value.at?_ofJson (path : List Json.Place) (j : Json) :
    (ofJson j).at? path = (j.at? path).map ofJson := by
  induction path generalizing j with
  | nil => rfl
  | cons place path ih =>
    have hbind (j? : Option Json) :
        (j?.map ofJson).bind (at? path) = (j?.bind (Json.at? path)).map ofJson := by
      cases j? with
      | none => rfl
      | some j => exact ih j
    cases j with
    | array items =>
      cases place with
      | item i => simp [ofJson, at?, Json.at?, ofJsonItems_eq_map, hbind]
      | member name => rfl
    | object members =>
      cases place with
      | item i => rfl
      | member name =>
        have hmember := Record.get?_ofJsonMembers members name
        rw [Record.ofJsonMembers] at hmember
        rw [ofJson, at?, Json.at?, hmember, hbind]
    | number n =>
      cases n with
      | _ =>
        cases place with
        | _ => rfl
    | _ =>
      cases place with
      | _ => rfl

theorem Value.ofJson_ne_guid (j : Json) (g : Guid) : Value.ofJson j ≠ .guid g := by
  intro h
  have hrecovered := Value.toJson?_ofJson j
  rw [h] at hrecovered
  cases hrecovered

-- ---------------------------------------------------------------------------
-- Numbers
-- ---------------------------------------------------------------------------

/-- The literal is written as this integer; a negative zero is not written as one. -/
structure Json.Literal.Writes (l : Literal) (i : Int) : Prop where
  isInteger : l.IsInteger
  not_negativeZero : ¬ (l.negative = true ∧ l.int = 0)
  int_eq : l.int = i

def Json.Literal.toValue? (l : Literal) : Option Value :=
  (Json.ofDoc? Json.depthLimit (.number l)).map Value.ofJson

namespace Json.Literal

variable {l : Literal} {i : Int}

theorem toValue?_eq : l.toValue? = (Number.ofLiteral? l).map fun n => .ofJson (.number n) := by
  rw [toValue?, Json.ofDoc?, Option.map_map]
  rfl

theorem Writes.carried (h : l.Writes i) (hlow : -2 ^ 63 ≤ i) (hhigh : i < 2 ^ 64) :
    ∃ v, l.toValue? = some v ∧ Carries l v := by
  obtain ⟨hinteger, hzero, rfl⟩ := h
  cases hn : Number.ofInteger? l with
  | none =>
    obtain ⟨hnegative, hvalue⟩ | ⟨-, hbelow⟩ | ⟨-, hbeyond⟩ := ofInteger?_eq_none hn
    · refine absurd ⟨hnegative, ?_⟩ hzero
      rw [int_of_negative hnegative, hvalue]
      rfl
    · omega
    · omega
  | some n =>
    have hliteral : Number.ofLiteral? l = some n := by
      simp [Number.ofLiteral?, hinteger.1, hinteger.2, hn]
    exact ⟨.ofJson (.number n), by rw [toValue?_eq, hliteral]; rfl, carries_of_ofInteger? hn⟩

theorem Writes.toValue?_int (h : l.Writes i) (hlow : -2 ^ 63 ≤ i) (hhigh : i < 2 ^ 63) :
    ∃ w : Int64, w.toInt = i ∧ l.toValue? = some (.int w) := by
  obtain ⟨v, hv, hcarries⟩ := h.carried hlow (by omega)
  obtain ⟨-, hzero, rfl⟩ := h
  cases hcarries with
  | int hw => exact ⟨_, hw, hv⟩
  | negativeZero hnegative hvalue => exact absurd ⟨hnegative, hvalue⟩ hzero
  | uint hlarge | below hlarge | beyond hlarge => omega

theorem Writes.toValue?_uint (h : l.Writes i) (hlow : 2 ^ 63 ≤ i) (hhigh : i < 2 ^ 64) :
    ∃ w : UInt64, w.toNat = i ∧ l.toValue? = some (.uint w) := by
  obtain ⟨v, hv, hcarries⟩ := h.carried (by omega) hhigh
  obtain ⟨-, hzero, rfl⟩ := h
  cases hcarries with
  | uint hlarge hw => exact ⟨_, hw, hv⟩
  | @int w hw =>
    have hrange := w.toInt_lt
    omega
  | negativeZero hnegative hvalue => exact absurd ⟨hnegative, hvalue⟩ hzero
  | below hsmall | beyond hsmall => omega

theorem toValue?_float (h : ∀ i, l.Writes i → i < -2 ^ 63 ∨ 2 ^ 64 ≤ i) {v : Value}
    (hv : l.toValue? = some v) : ∃ x, v = .float x := by
  rw [toValue?_eq, Option.map_eq_some_iff] at hv
  obtain ⟨n, hn, rfl⟩ := hv
  by_cases hinteger : l.IsInteger
  · have hcarries := carries_of_ofLiteral? hinteger hn
    generalize Value.ofJson (.number n) = v at hcarries
    cases hcarries with
    | @int w hw hzero =>
      have hout := h l.int ⟨hinteger, hzero, rfl⟩
      have hlow := w.le_toInt
      have hhigh := w.toInt_lt
      omega
    | @uint w hlarge hw =>
      have hout := h l.int ⟨hinteger, fun hz => by omega, rfl⟩
      have hhigh := w.toNat_lt
      omega
    | negativeZero | below | beyond => exact ⟨_, rfl⟩
  · have hnot : ¬ (l.fraction.isEmpty = true ∧ l.exponent.isNone = true) := by
      rwa [List.isEmpty_iff, Option.isNone_iff_eq_none]
    rw [Number.ofLiteral?, if_neg hnot] at hn
    obtain ⟨x, -, rfl⟩ := Option.map_eq_some_iff.mp hn
    exact ⟨x, rfl⟩

end Json.Literal

-- ---------------------------------------------------------------------------
-- Values
-- ---------------------------------------------------------------------------

structure Json.KeptWhole (j : Json) : Prop where
  recovered : (Value.ofJson j).toJson? = some j
  distinct : ∀ j', Value.ofJson j = Value.ofJson j' → j = j'
  same_iff : ∀ j', (Value.ofJson j).same (Value.ofJson j') = true ↔ j.same j' = true
  found : ∀ path, (Value.ofJson j).at? path = (j.at? path).map Value.ofJson
  items : ∀ path items, j.at? path = some (.array items) →
    (Value.ofJson j).at? path = some (.list (items.map Value.ofJson))
  members : ∀ path members, j.at? path = some (.object members) →
    (Value.ofJson j).at? path = some (.record (Record.ofJsonMembers members).members) ∧
      (Record.ofJsonMembers members).members.map Prod.fst = members.map Prod.fst ∧
      ∀ name, (Record.ofJsonMembers members).get? name =
        (SortedMap.find? members name).map Value.ofJson
  no_guid : ∀ path g, (Value.ofJson j).at? path ≠ some (.guid g)

structure Json.Literal.KeptApart (l : Literal) : Prop where
  int : ∀ i : Int, l.Writes i → -2 ^ 63 ≤ i → i < 2 ^ 63 →
    ∃ w : Int64, w.toInt = i ∧ l.toValue? = some (.int w)
  uint : ∀ i : Int, l.Writes i → 2 ^ 63 ≤ i → i < 2 ^ 64 →
    ∃ w : UInt64, w.toNat = i ∧ l.toValue? = some (.uint w)
  float : (∀ i, l.Writes i → i < -2 ^ 63 ∨ 2 ^ 64 ≤ i) →
    ∀ v, l.toValue? = some v → ∃ x, v = .float x

/-- JSON values are converted without loss, at every depth, and numbers without being taken
for numbers of another kind. -/
theorem converted_without_loss :
    (∀ j : Json, j.KeptWhole) ∧ ∀ l : Literal, l.KeptApart := by
  refine ⟨fun j => ⟨Value.toJson?_ofJson j, fun j' h => Value.ofJson_injective h, fun j' => ?_,
    fun path => Value.at?_ofJson path j, ?_, ?_, ?_⟩, fun l => ⟨?_, ?_, ?_⟩⟩
  · rw [Value.same_ofJson]
  · intro path items h
    rw [Value.at?_ofJson, h, Option.map_some, Value.ofJson, Value.ofJsonItems_eq_map]
  · intro path members h
    refine ⟨?_, Value.names_ofJsonMembers members, Record.get?_ofJsonMembers members⟩
    rw [Value.at?_ofJson, h]
    rfl
  · intro path g h
    rw [Value.at?_ofJson, Option.map_eq_some_iff] at h
    obtain ⟨j', -, hguid⟩ := h
    exact Value.ofJson_ne_guid j' g hguid
  · exact fun i h => h.toValue?_int
  · exact fun i h => h.toValue?_uint
  · exact fun h v => Json.Literal.toValue?_float h

end GuestControl
