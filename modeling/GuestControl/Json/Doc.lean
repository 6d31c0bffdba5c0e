import GuestControl.Text.Numeral

/-!
# JSON documents

The tree of a JSON text: numbers by their digits, members in the order of
the text with repetitions, and a mark where the text stops being JSON. A
string whose escapes or octets are no Unicode text has no content.
`Doc.render` writes a document without blanks.
-/

namespace GuestControl.Json

abbrev Digit := Fin 10

structure Literal where
  negative : Bool
  whole : List Digit
  fraction : List Digit
  /-- Whether the exponent is negative, and its digits. -/
  exponent : Option (Bool × List Digit)
  deriving DecidableEq, Inhabited

inductive Doc where
  | null
  | bool (b : Bool)
  | number (literal : Literal)
  | string (content : Option String)
  | array (items : List Doc)
  | object (members : List (Option String × Doc))
  /-- The text is no JSON from here on. -/
  | broken
  deriving Inhabited

namespace Literal

def ofNat (n : Nat) : Literal := ⟨false, Text.Numeral.decimalDigits n, [], none⟩

def ofInt : Int → Literal
  | .ofNat n => ofNat n
  | .negSucc n => { ofNat (n + 1) with negative := true }

def digitChars (ds : List Digit) : List Char := ds.map (Text.Numeral.digitChar ·.val)

def render (l : Literal) : List Char :=
  (if l.negative then ['-'] else []) ++ digitChars l.whole ++
    (if l.fraction.isEmpty then [] else '.' :: digitChars l.fraction) ++
    match l.exponent with
    | none => []
    | some (negative, ds) => 'e' :: (if negative then ['-'] else []) ++ digitChars ds

end Literal

namespace Doc

def text (s : String) : Doc := .string (some s)

def nat (n : Nat) : Doc := .number (.ofNat n)

def int (n : Int) : Doc := .number (.ofInt n)

def optional (d : Option Doc) : Doc := d.getD .null

def fields (members : List (String × Doc)) : Doc :=
  .object (members.map fun m => (some m.1, m.2))

-- ---------------------------------------------------------------------------
-- Writing
-- ---------------------------------------------------------------------------

def escape (c : Char) : List Char :=
  if c = '\x22' then ['\\', '\x22']
  else if c = '\\' then ['\\', '\\']
  else if c = '\x08' then ['\\', 'b']
  else if c = '\t' then ['\\', 't']
  else if c = '\n' then ['\\', 'n']
  else if c = '\x0c' then ['\\', 'f']
  else if c = '\r' then ['\\', 'r']
  else if c.toNat < 32 then
    ['\\', 'u', '0', '0', Text.Numeral.digitChar (c.toNat / 16),
      Text.Numeral.digitChar (c.toNat % 16)]
  else [c]

def quoted (s : List Char) : List Char := '\x22' :: (s.flatMap escape ++ ['\x22'])

mutual

def chars : Doc → List Char
  | .null => "null".toList
  | .bool b => (if b then "true" else "false").toList
  | .number l => l.render
  | .string content => quoted ((content.getD "").toList)
  | .array items => '[' :: (itemChars items ++ [']'])
  | .object members => '\x7b' :: (memberChars members ++ ['\x7d'])
  | .broken => []

def itemChars : List Doc → List Char
  | [] => []
  | [d] => d.chars
  | d :: e :: rest => d.chars ++ ',' :: itemChars (e :: rest)

def memberChars : List (Option String × Doc) → List Char
  | [] => []
  | [(k, d)] => quoted ((k.getD "").toList) ++ ':' :: d.chars
  | (k, d) :: e :: rest =>
    quoted ((k.getD "").toList) ++ ':' :: (d.chars ++ ',' :: memberChars (e :: rest))

end

def render (d : Doc) : String := String.ofList d.chars

mutual

def intact : Doc → Bool
  | .array items => intactItems items
  | .object members => intactMembers members
  | .broken => false
  | _ => true

def intactItems : List Doc → Bool
  | [] => true
  | d :: rest => d.intact && intactItems rest

def intactMembers : List (Option String × Doc) → Bool
  | [] => true
  | (_, d) :: rest => d.intact && intactMembers rest

end

end Doc

end GuestControl.Json
