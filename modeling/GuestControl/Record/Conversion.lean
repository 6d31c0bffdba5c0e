import GuestControl.Text.Ascii
import GuestControl.Text.Blank
import GuestControl.Value

/-!
# Conversion of member values

Each converter turns a member's value, whatever its kind, into one type, or
says what was expected and what was found. Null stands for the default of
every type. Numbers are never changed: a value that the type cannot hold
exactly is a mismatch.
-/

namespace GuestControl

structure Mismatch where
  expected : String
  found : String
  deriving DecidableEq, Repr

def Mismatch.of (expected : String) (v : Value) : Mismatch :=
  { expected := expected, found := v.kind ++ " " ++ v.text }

namespace Value

abbrev Converted (α : Type) := Except Mismatch α

def expecting {α : Type} (expected : String) (v : Value) : Option α → Converted α
  | some a => .ok a
  | none => .error (.of expected v)

def toText (v : Value) : Converted String :=
  match v with
  | .null => .ok ""
  | .string s => .ok s
  | .bool b => .ok (if b then "True" else "False")
  | .int i => .ok (Text.Numeral.signed i.toInt)
  | .uint n => .ok (Text.Numeral.decimal n.toNat)
  | .float x => .ok x.text
  | .guid g => .ok g.text
  | .record _ | .list _ => .error (.of "string" v)

def wholeBelow? (bound : Nat) (x : Binary64) : Option Int :=
  x.integer?.filter fun i => i.natAbs < bound

/-- The first magnitude that a double may not have to be read as signed. -/
def signedBound : Nat := 9200000000000000000

/-- The first magnitude that a double may not have to be read as unsigned. -/
def unsignedBound : Nat := 18000000000000000000

/-- The integer that a value denotes, as far as a signed word is meant. -/
def signed? : Value → Option Int
  | .null => some 0
  | .int i => some i.toInt
  | .uint n => some n.toNat
  | .float x => wholeBelow? signedBound x
  | .string s => Text.Numeral.integer? (Text.trimChars s.toList)
  | _ => none

/-- The natural number that a value denotes, as far as an unsigned word is meant. -/
def unsigned? : Value → Option Nat
  | .null => some 0
  | .uint n => some n.toNat
  | .int i => Word.nat? i.toInt
  | .float x => (wholeBelow? unsignedBound x).bind Word.nat?
  | .string s => Text.Numeral.natural? (Text.trimChars s.toList)
  | _ => none

/-- A double is cast once it is known to be a whole number that is not too large. -/
def toInt64 (v : Value) : Converted Int64 :=
  v.expecting "signed integer" <|
    match v with
    | .float x => (wholeBelow? signedBound x).map fun _ => x.toInt64
    | _ => v.signed?.bind Word.int64?

def toUInt64 (v : Value) : Converted UInt64 :=
  v.expecting "unsigned integer" <|
    match v with
    | .float x => ((wholeBelow? unsignedBound x).bind Word.nat?).map fun _ => x.toUInt64
    | _ => v.unsigned?.bind Word.uint64?

def toUInt32 (v : Value) : Converted UInt32 := do
  let wide ← v.toUInt64
  v.expecting "32-bit unsigned integer" (Word.uint32? wide.toNat)

def toBool (v : Value) : Converted Bool :=
  match v with
  | .null => .ok false
  | .bool b => .ok b
  | .int i => if i = 0 then .ok false else if i = 1 then .ok true else .error (.of "bool" v)
  | .uint n => if n = 0 then .ok false else if n = 1 then .ok true else .error (.of "bool" v)
  | .string s =>
    if Text.sameLetters s "true" then .ok true
    else if Text.sameLetters s "false" then .ok false
    else .error (.of "bool" v)
  | _ => .error (.of "bool" v)

/-- An identifier; blank text is the nil identifier. -/
def toGuid (v : Value) : Converted Guid :=
  match v with
  | .null => .ok .nil
  | .guid g => .ok g
  | .string s =>
    let trimmed := Text.trimChars s.toList
    if trimmed.isEmpty then .ok .nil else v.expecting "guid" (Guid.parseChars? trimmed)
  | _ => .error (.of "guid" v)

/-- An identifier, where the nil identifier means that there is none. -/
def toOptionalGuid (v : Value) : Converted (Option Guid) :=
  v.toGuid.map fun g => if g.isNil then none else some g

-- ---------------------------------------------------------------------------
-- Casts
-- ---------------------------------------------------------------------------

/-- The bound keeps the cast exact. -/
theorem signed_float (x : Binary64) : (wholeBelow? signedBound x).map (fun _ => x.toInt64) =
    (wholeBelow? signedBound x).bind Word.int64? := by
  cases h : wholeBelow? signedBound x with
  | none => rfl
  | some i =>
    obtain ⟨hi, hbound⟩ := Option.filter_eq_some_iff.mp h
    obtain ⟨s, u, rfl, rfl⟩ := Binary64.eq_truncated hi
    have hsmall := of_decide_eq_true hbound
    -- 92 · 10¹⁷ is below 2⁶³
    unfold signedBound at hsmall
    exact (Word.int64?_eq_cast (by omega) (by omega)).symm

theorem unsigned_float (x : Binary64) :
    ((wholeBelow? unsignedBound x).bind Word.nat?).map (fun _ => x.toUInt64) =
      ((wholeBelow? unsignedBound x).bind Word.nat?).bind Word.uint64? := by
  cases h : (wholeBelow? unsignedBound x).bind Word.nat? with
  | none => rfl
  | some n =>
    obtain ⟨i, hwhole, hn⟩ := Option.bind_eq_some_iff.mp h
    obtain ⟨hi, hbound⟩ := Option.filter_eq_some_iff.mp hwhole
    obtain ⟨s, u, rfl, rfl⟩ := Binary64.eq_truncated hi
    have hvalue := Word.nat?_eq_some.mp hn
    have hsmall := of_decide_eq_true hbound
    -- 18 · 10¹⁸ is below 2⁶⁴
    unfold unsignedBound at hsmall
    refine Eq.trans (congrArg (fun i => some (Word.castUInt64 i)) hvalue) ?_
    exact (Word.uint64?_eq_cast (by omega)).symm

theorem toInt64_eq (v : Value) :
    v.toInt64 = v.expecting "signed integer" (v.signed?.bind Word.int64?) := by
  cases v with
  | float x => exact congrArg _ (signed_float x)
  | _ => rfl

theorem toUInt64_eq (v : Value) :
    v.toUInt64 = v.expecting "unsigned integer" (v.unsigned?.bind Word.uint64?) := by
  cases v with
  | float x => exact congrArg _ (unsigned_float x)
  | _ => rfl

end Value

end GuestControl
