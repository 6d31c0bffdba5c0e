import GuestControl.Text.Numeral
import GuestControl.Text.Split
import GuestControl.Text.Utf8

/-!
# Request targets

A target is a path and a query. Path segments and form fields are
percent-encoded octets; a percent sign without two hexadecimal digits after
it stands for itself. In a form a plus sign is a space.
-/

namespace GuestControl.Web

structure Target where
  /-- The segments of the path, still encoded. -/
  segments : List (List Char)
  query : List Char
  deriving DecidableEq

namespace Target

/-- The part of a target after scheme and authority, if it has these. -/
def afterAuthority (s : List Char) : List Char :=
  if s.head? = some '/' then s
  else
    match (Text.cutAt ':' s).2 with
    | some ('/' :: '/' :: rest) =>
      let after := rest.dropWhile fun c => c ≠ '/' && c ≠ '?'
      if after.head? = some '/' then after else '/' :: after
    | _ => s

/-- Reads a target. What follows a number sign does not belong to it. -/
def parse (s : String) : Target :=
  let body := afterAuthority (Text.cutAt '#' s.toList).1
  let (path, query) := Text.cutAt '?' body
  { segments := Text.pieces '/' path, query := query.getD [] }

end Target

-- ---------------------------------------------------------------------------
-- Percent encoding
-- ---------------------------------------------------------------------------

def hexDigit? (b : UInt8) : Option Nat :=
  (Text.Numeral.digit? 16 (Char.ofNat b.toNat)).map (·.val)

def percentDecode : List UInt8 → List UInt8
  | a :: h :: l :: rest =>
    if a = 37 then
      match hexDigit? h, hexDigit? l with
      | some x, some y => UInt8.ofNat (x * 16 + y) :: percentDecode rest
      | _, _ => a :: percentDecode (h :: l :: rest)
    else a :: percentDecode (h :: l :: rest)
  | s => s

def decodeChars (s : List Char) : List UInt8 :=
  percentDecode (Text.Utf8.encode (String.ofList s))

/-- The text of a path segment, if it is UTF-8. -/
def segmentText? (s : List Char) : Option String := Text.Utf8.strict? (decodeChars s)

-- ---------------------------------------------------------------------------
-- Forms
-- ---------------------------------------------------------------------------

def formText (s : List Char) : String :=
  Text.Utf8.lenient (decodeChars (s.map fun c => if c = '+' then ' ' else c))

/-- A field of a form; without an equals sign the value is empty. -/
def formField (s : List Char) : String × String :=
  let (key, value) := Text.cutAt '=' s
  (formText key, formText (value.getD []))

def formFields (s : List Char) : List (String × String) :=
  ((Text.pieces '&' s).filter fun p => !p.isEmpty).map formField

/-- The value of a field that may occur once at most; nothing if it occurs more often. -/
def atMostOnce? (name : String) (fields : List (String × String)) : Option (Option String) :=
  match fields.filter (·.1 = name) with
  | [] => some none
  | [f] => some (some f.2)
  | _ => none

end GuestControl.Web
