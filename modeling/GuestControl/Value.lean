import GuestControl.Binary64.Shortest
import GuestControl.Guid
import GuestControl.Json.Value

/-!
# Member values and records

The shell hands back loosely typed objects. A record holds the members of
one object, sorted by name; a member's value is one of nine kinds. Objects
arrive as JSON, where an integer that fits 64 bits stays exact and only
other numbers become doubles (`Value.ofJson`).
-/

namespace GuestControl

inductive Value where
  | null
  | bool (b : Bool)
  | int (i : Int64)
  | uint (n : UInt64)
  | float (x : Binary64)
  | string (s : String)
  | guid (g : Guid)
  | record (members : List (String × Value))
  | list (items : List Value)
  deriving Inhabited

/-- The members of an object, sorted by name. -/
structure Record where
  members : List (String × Value)
  deriving Inhabited

namespace Record

def empty : Record := ⟨[]⟩

def insert (r : Record) (name : String) (v : Value) : Record :=
  ⟨SortedMap.insert Text.before r.members name v⟩

def get? (r : Record) (name : String) : Option Value := SortedMap.find? r.members name

def contains (r : Record) (name : String) : Bool := (r.get? name).isSome

def size (r : Record) : Nat := r.members.length

def isEmpty (r : Record) : Bool := r.members.isEmpty

/-- The record of a list of members; of two members of one name the later counts. -/
def ofMembers (ms : List (String × Value)) : Record := ⟨SortedMap.ofPairs Text.before ms⟩

theorem get?_insert_self (r : Record) (name : String) (v : Value) :
    (r.insert name v).get? name = some v := SortedMap.find?_insert_self ..

theorem get?_insert_of_ne (r : Record) {name name' : String} (v : Value) (h : name' ≠ name) :
    (r.insert name v).get? name' = r.get? name' := SortedMap.find?_insert_of_ne _ _ _ h

end Record

namespace Value

def isNull : Value → Bool
  | .null => true
  | _ => false

/-- The name of the kind, as it appears in diagnostics. -/
def kind : Value → String
  | .null => "null"
  | .bool _ => "bool"
  | .int _ | .uint _ => "integer"
  | .float _ => "float"
  | .string _ => "string"
  | .guid _ => "guid"
  | .record _ => "record"
  | .list _ => "list"

def text : Value → String
  | .null => "null"
  | .bool b => if b then "true" else "false"
  | .int i => Text.Numeral.signed i.toInt
  | .uint n => Text.Numeral.decimal n.toNat
  | .float x => x.text
  | .string s => "'" ++ s ++ "'"
  | .guid g => g.text
  | .record ms => "record with " ++ Text.Numeral.decimal ms.length ++ " members"
  | .list items => "list of " ++ Text.Numeral.decimal items.length

mutual

def ofJson : Json → Value
  | .null => .null
  | .bool b => .bool b
  | .number (.integer i) => .int i
  | .number (.large n) => .uint n
  | .number (.real x) => .float x
  | .string s => .string s
  | .array items => .list (ofJsonItems items)
  | .object members => .record (ofJsonMembers members)

def ofJsonItems : List Json → List Value
  | [] => []
  | j :: rest => ofJson j :: ofJsonItems rest

def ofJsonMembers : List (String × Json) → List (String × Value)
  | [] => []
  | (k, j) :: rest => (k, ofJson j) :: ofJsonMembers rest

end

end Value

def Record.ofJsonMembers (members : List (String × Json)) : Record :=
  ⟨Value.ofJsonMembers members⟩

theorem Record.get?_ofJsonMembers (ms : List (String × Json)) (name : String) :
    (Record.ofJsonMembers ms).get? name = (SortedMap.find? ms name).map Value.ofJson := by
  unfold Record.ofJsonMembers Record.get?
  induction ms with
  | nil => rfl
  | cons m ms ih =>
    obtain ⟨k, j⟩ := m
    rw [Value.ofJsonMembers, SortedMap.find?, SortedMap.find?]
    split
    · rfl
    · exact ih

end GuestControl
