import GuestControl.Json.Number
import GuestControl.SortedMap
import GuestControl.Text.Order

/-!
# JSON values

The value of a document: numbers by what they denote, members sorted by
name, the last of several members of one name. A document has a value if
nothing in it is broken, every string is Unicode text, every number is in
range and it is nested less deep than the room allows.
-/

namespace GuestControl

inductive Json where
  | null
  | bool (b : Bool)
  | number (n : Json.Number)
  | string (s : String)
  | array (items : List Json)
  | object (members : List (String × Json))
  deriving Inhabited

namespace Json

/-- The room for nesting that a text is read with: one more than the nesting it may have. -/
def depthLimit : Nat := 128

mutual

def ofDoc? (room : Nat) : Doc → Option Json
  | .null => some .null
  | .bool b => some (.bool b)
  | .number l => (Number.ofLiteral? l).map .number
  | .string content => content.map .string
  | .array items => if room ≤ 1 then none else (ofItems? (room - 1) items).map .array
  | .object members =>
    if room ≤ 1 then none
    else (ofMembers? (room - 1) members).map fun ms => .object (SortedMap.ofPairs Text.before ms)
  | .broken => none

def ofItems? (room : Nat) : List Doc → Option (List Json)
  | [] => some []
  | d :: rest =>
    match ofDoc? room d, ofItems? room rest with
    | some j, some js => some (j :: js)
    | _, _ => none

def ofMembers? (room : Nat) : List (Option String × Doc) → Option (List (String × Json))
  | [] => some []
  | (key, d) :: rest =>
    match key, ofDoc? room d, ofMembers? room rest with
    | some k, some j, some ms => some ((k, j) :: ms)
    | _, _, _ => none

end

end Json

end GuestControl
