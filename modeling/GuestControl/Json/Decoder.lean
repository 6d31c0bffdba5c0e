import GuestControl.Json.Reading
import GuestControl.Json.Value

/-!
# Decoding documents into types

A decoder walks a document in the order of the text and stops at the first
fault. There are two kinds: the text is malformed, or it says something else
than the type can hold. A structure is read from an object by a table of
fields, or from an array that holds the fields in the order of the table.
-/

namespace GuestControl.Json

inductive Fault where
  | malformed
  | mistyped
  deriving DecidableEq, Repr

/-- Reads a document with some room for nesting. -/
abbrev Decoder (α : Type) := Nat → Doc → Except Fault α

/-- The fault of a document that is of another kind than expected. A scalar is
read to its end before its kind is judged. -/
def Doc.otherKind : Doc → Fault
  | .number l => if (Number.ofLiteral? l).isSome then .mistyped else .malformed
  | .string none => .malformed
  | .broken => .malformed
  | _ => .mistyped

namespace Decoder

def value : Decoder Json := fun room d =>
  match ofDoc? room d with
  | some j => .ok j
  | none => .error .malformed

def string : Decoder String
  | _, .string (some s) => .ok s
  | _, d => .error d.otherKind

def bool : Decoder Bool
  | _, .bool b => .ok b
  | _, d => .error d.otherKind

def natural {α : Type} (hold? : Nat → Option α) : Decoder α
  | _, .number l =>
    match Number.ofLiteral? l with
    | none => .error .malformed
    | some n =>
      match n.nat?.bind hold? with
      | some a => .ok a
      | none => .error .mistyped
  | _, d => .error d.otherKind

def uint32 : Decoder UInt32 := natural Word.uint32?

def uint64 : Decoder UInt64 := natural Word.uint64?

def named {α : Type} (names : List (String × α)) (name : String) : Except Fault α :=
  match names.lookup name with
  | some a => .ok a
  | none => .error .mistyped

/-- One of several choices: its name, or an object whose only member has that
name and the value null. -/
def choice {α : Type} (names : List (String × α)) : Decoder α
  | _, .string (some s) => named names s
  | room, .object ((some key, d) :: rest) =>
    if room ≤ 1 then .error .malformed
    else do
      let a ← named names key
      match d with
      | .null => if rest.isEmpty then .ok a else .error .malformed
      | d => .error d.otherKind
  | _, _ => .error .malformed

-- ---------------------------------------------------------------------------
-- Structures
-- ---------------------------------------------------------------------------

structure Field (σ : Type) where
  name : String
  required : Bool
  read : Nat → Doc → σ → Except Fault σ

def Field.of {σ α : Type} (name : String) (required : Bool) (decoder : Decoder α)
    (set : σ → α → σ) : Field σ :=
  { name := name, required := required, read := fun room d s => (decoder room d).map (set s) }

/-- Reads the members of an object; `seen` are the fields met so far. Unknown
members are skipped, a field that comes twice is a fault. -/
def members {σ : Type} (fields : List (Field σ)) (room : Nat) (seen : List String) (s : σ) :
    List (Option String × Doc) → Except Fault σ
  | [] =>
    if fields.all fun f => !f.required || seen.contains f.name then .ok s else .error .mistyped
  | (none, _) :: _ => .error .malformed
  | (some key, d) :: rest =>
    match fields.find? (·.name = key) with
    | none => if d.intact then members fields room seen s rest else .error .malformed
    | some f =>
      if seen.contains key then .error .mistyped
      else do
        let s ← f.read room d s
        members fields room (key :: seen) s rest

def items {σ : Type} (room : Nat) (s : σ) : List (Field σ) → List Doc → Except Fault σ
  | [], [] => .ok s
  | [], _ :: _ => .error .malformed
  | f :: fs, [] => if f.required then .error .mistyped else items room s fs []
  | f :: fs, d :: rest => do
    let s ← f.read room d s
    items room s fs rest

/-- A structure, beginning with what it holds where nothing is given. -/
def struct {σ : Type} (fields : List (Field σ)) (initial : σ) : Decoder σ
  | room, .object ms =>
    if room ≤ 1 then .error .malformed else members fields (room - 1) [] initial ms
  | room, .array ds =>
    if room ≤ 1 then .error .malformed else items (room - 1) initial fields ds
  | _, d => .error d.otherKind

def run {α : Type} (decoder : Decoder α) (s : Text.Source) : Except Fault α :=
  let (d, rest) := readValue s
  do
    let a ← decoder depthLimit d
    if (skipSpace rest).isEmpty then .ok a else .error .malformed

def runString {α : Type} (decoder : Decoder α) (s : String) : Except Fault α :=
  decoder.run (Text.Source.ofString s)

end Decoder

end GuestControl.Json
