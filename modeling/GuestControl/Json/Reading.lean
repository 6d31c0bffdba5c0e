import GuestControl.Json.Doc
import GuestControl.Text.Utf8

/-!
# Reading JSON text

The strict grammar, with any depth of nesting. Reading never fails: where
the text stops being JSON the tree gets a broken leaf, so that whoever
interprets the tree in the order of the text meets what comes before the
break first.
-/

namespace GuestControl.Json

open Text (Source)

def isSpace : Option Char → Bool
  | some c => c = ' ' || c = '\n' || c = '\t' || c = '\r'
  | none => false

def skipSpace (s : Source) : Source := s.dropWhile isSpace

-- ---------------------------------------------------------------------------
-- Strings
-- ---------------------------------------------------------------------------

inductive Piece where
  | char (c : Char)
  /-- An escaped surrogate, half of a character. -/
  | half (code : Nat)
  | illFormed
  deriving DecidableEq, Repr

def Piece.ofCode (n : Nat) : Piece :=
  if 0xD800 ≤ n ∧ n ≤ 0xDFFF then .half n else .char (Char.ofNat n)

/-- The characters of a string; every half must be the first or second of a pair. -/
def joinPieces : List Piece → Option (List Char)
  | [] => some []
  | .char c :: rest => (joinPieces rest).map (c :: ·)
  | .half h :: .half l :: rest =>
    if h ≤ 0xDBFF ∧ 0xDC00 ≤ l then
      (joinPieces rest).map (Char.ofNat (0x10000 + (h - 0xD800) * 0x400 + (l - 0xDC00)) :: ·)
    else none
  | _ => none

def escaped? : Char → Option Char
  | '\x22' => some '\x22'
  | '\\' => some '\\'
  | '/' => some '/'
  | 'b' => some '\x08'
  | 'f' => some '\x0c'
  | 'n' => some '\n'
  | 'r' => some '\r'
  | 't' => some '\t'
  | _ => none

def code? (digits : List (Option Char)) : Option Nat :=
  (digits.mapM id).bind fun cs => (Text.Numeral.digits? 16 cs).map Text.Numeral.value

def pieces? : Source → Option (List Piece × Source)
  | [] => none
  | some '\x22' :: rest => some ([], rest)
  | some '\\' :: some 'u' :: a :: b :: c :: d :: rest =>
    match code? [a, b, c, d], pieces? rest with
    | some n, some (ps, after) => some (Piece.ofCode n :: ps, after)
    | _, _ => none
  | some '\\' :: some e :: rest =>
    match escaped? e, pieces? rest with
    | some c, some (ps, after) => some (.char c :: ps, after)
    | _, _ => none
  | some '\\' :: _ => none
  | some c :: rest =>
    if c.toNat < 32 then none
    else match pieces? rest with
      | some (ps, after) => some (.char c :: ps, after)
      | none => none
  | none :: rest =>
    match pieces? rest with
    | some (ps, after) => some (.illFormed :: ps, after)
    | none => none

def string? (s : Source) : Option (Option String × Source) :=
  (pieces? s).map fun (ps, rest) => ((joinPieces ps).map String.ofList, rest)

-- ---------------------------------------------------------------------------
-- Numbers
-- ---------------------------------------------------------------------------

def takeDigits : Source → List Digit × Source
  | some c :: rest =>
    match Text.Numeral.digit? 10 c with
    | some d => let (ds, after) := takeDigits rest; (d :: ds, after)
    | none => ([], some c :: rest)
  | s => ([], s)

def takeMinus : Source → Bool × Source
  | some '-' :: rest => (true, rest)
  | s => (false, s)

def takeSign : Source → Bool × Source
  | some '-' :: rest => (true, rest)
  | some '+' :: rest => (false, rest)
  | s => (false, s)

/-- The digits of a fraction; `some []` if there is no point. -/
def takeFraction : Source → Option (List Digit × Source)
  | some '.' :: rest =>
    match takeDigits rest with
    | ([], _) => none
    | found => some found
  | s => some ([], s)

def takeExponent : Source → Option (Option (Bool × List Digit) × Source)
  | some c :: rest =>
    if c = 'e' ∨ c = 'E' then
      let (negative, digits) := takeSign rest
      match takeDigits digits with
      | ([], _) => none
      | (ds, after) => some (some (negative, ds), after)
    else some (none, some c :: rest)
  | s => some (none, s)

/-- The number that a text begins with. More digits after a leading zero are refused. -/
def literal? (s : Source) : Option (Literal × Source) :=
  let (negative, s) := takeMinus s
  let (whole, s) := takeDigits s
  if whole.isEmpty ∨ ((whole.head?.map (·.val)) = some 0 ∧ whole.length ≠ 1) then none
  else (takeFraction s).bind fun (fraction, s) =>
    (takeExponent s).map fun (exponent, s) => (⟨negative, whole, fraction, exponent⟩, s)

-- ---------------------------------------------------------------------------
-- Values
-- ---------------------------------------------------------------------------

/-- A word, of which the first letter is read already. -/
def word (letters : List Char) (d : Doc) (s : Source) : Doc × Source :=
  if s.take letters.length = letters.map some then (d, s.drop letters.length) else (.broken, [])

mutual

/-- The value that a text begins with and what follows it; `fuel` bounds the recursion. -/
def valueFrom : Nat → Source → Doc × Source
  | 0, _ => (.broken, [])
  | fuel + 1, s =>
    match skipSpace s with
    | some 'n' :: rest => word ['u', 'l', 'l'] .null rest
    | some 't' :: rest => word ['r', 'u', 'e'] (.bool true) rest
    | some 'f' :: rest => word ['a', 'l', 's', 'e'] (.bool false) rest
    | some '\x22' :: rest =>
      match string? rest with
      | some (content, after) => (.string content, after)
      | none => (.broken, [])
    | some '[' :: rest =>
      match skipSpace rest with
      | some ']' :: after => (.array [], after)
      | inside => let (items, after) := itemsFrom fuel inside; (.array items, after)
    | some '\x7b' :: rest =>
      match skipSpace rest with
      | some '\x7d' :: after => (.object [], after)
      | inside => let (members, after) := membersFrom fuel inside; (.object members, after)
    | rest =>
      match literal? rest with
      | some (l, after) => (.number l, after)
      | none => (.broken, [])

def itemsFrom : Nat → Source → List Doc × Source
  | 0, _ => ([.broken], [])
  | fuel + 1, s =>
    let (d, rest) := valueFrom fuel s
    match skipSpace rest with
    | some ',' :: rest => let (ds, after) := itemsFrom fuel rest; (d :: ds, after)
    | some ']' :: after => ([d], after)
    | _ => ([d, .broken], [])

def membersFrom : Nat → Source → List (Option String × Doc) × Source
  | 0, _ => ([(none, .broken)], [])
  | fuel + 1, s =>
    match skipSpace s with
    | some '\x22' :: rest =>
      match string? rest with
      | none => ([(none, .broken)], [])
      | some (key, rest) =>
        match skipSpace rest with
        | some ':' :: rest =>
          let (d, rest) := valueFrom fuel rest
          match skipSpace rest with
          | some ',' :: rest => let (ms, after) := membersFrom fuel rest; ((key, d) :: ms, after)
          | some '\x7d' :: after => ([(key, d)], after)
          | _ => ([(key, d), (none, .broken)], [])
        | _ => ([(key, .broken)], [])
    | _ => ([(none, .broken)], [])

end

def readValue (s : Source) : Doc × Source := valueFrom (2 * s.length + 2) s

end GuestControl.Json
