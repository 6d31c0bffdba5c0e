import GuestControl.Toml.Basic
import GuestControl.Word

/-!
# Numbers, dates and times of TOML

Each reader takes the longest number or moment that a text begins with. What
is left over is judged by whoever reads on, since nothing but blanks, commas,
brackets and the end of the line may follow a value.
-/

namespace GuestControl.Toml

open Text (Numeral.digit? Numeral.value)

-- ---------------------------------------------------------------------------
-- Digits
-- ---------------------------------------------------------------------------

/-- Digits of base `b`, in which an underscore may stand between two digits. -/
def spaced? (b : Nat) : List Char → Option (List (Fin b))
  | [] => none
  | [c] => (Numeral.digit? b c).map ([·])
  | c :: '_' :: rest => do
    let d ← Numeral.digit? b c
    some (d :: (← spaced? b rest))
  | c :: rest => do
    let d ← Numeral.digit? b c
    some (d :: (← spaced? b rest))

def isSpacedDigit (b : Nat) (c : Char) : Bool := c = '_' || (Numeral.digit? b c).isSome

def digits? (b : Nat) (s : List Char) : Option (List (Fin b) × List Char) :=
  (spaced? b (s.takeWhile (isSpacedDigit b))).map fun ds => (ds, s.dropWhile (isSpacedDigit b))

def sign : List Char → Bool × List Char
  | '-' :: rest => (true, rest)
  | '+' :: rest => (false, rest)
  | s => (false, s)

-- ---------------------------------------------------------------------------
-- Numbers
-- ---------------------------------------------------------------------------

/-- An integer in base 16, 8 or 2, after the mark of its base. -/
def based? (b : Nat) (s : List Char) : Option (Tree × List Char) := do
  let (ds, rest) ← digits? b s
  some (.integer (← Word.int64? (Numeral.value ds)), rest)

def fraction? : List Char → Option (List (Fin 10) × List Char)
  | '.' :: rest => digits? 10 rest
  | s => some ([], s)

/-- The exponent, and what follows; none if there is no exponent. -/
def exponent? : List Char → Option (Option Int × List Char)
  | c :: rest =>
    if c = 'e' ∨ c = 'E' then do
      let (negative, rest) := sign rest
      let (ds, rest) ← digits? 10 rest
      let n : Int := Numeral.value ds
      some (some (if negative then -n else n), rest)
    else some (none, c :: rest)
  | [] => some (none, [])

/-- A decimal number. One without fraction and exponent is an integer; a float
must not be too large, a negative one becomes infinite then. -/
def decimal? (s : List Char) : Option (Tree × List Char) := do
  let (negative, s) := sign s
  let (whole, s) ← digits? 10 s
  if (whole.head?.map (·.val)) = some 0 ∧ whole.length ≠ 1 then none
  else
    let (fraction, s) ← fraction? s
    let (exponent, s) ← exponent? s
    if fraction.isEmpty ∧ exponent.isNone then
      let n : Int := Numeral.value whole
      some (.integer (← Word.int64? (if negative then -n else n)), s)
    else
      let x := Binary64.ofDecimal negative (whole ++ fraction) (exponent.getD 0 - fraction.length)
      if x = .infinite false then none else some (.float x, s)

def special? (s : List Char) : Option (Tree × List Char) :=
  match sign s with
  | (negative, 'i' :: 'n' :: 'f' :: rest) => some (.float (.infinite negative), rest)
  | (_, 'n' :: 'a' :: 'n' :: rest) => some (.float .nan, rest)
  | _ => none

def number? : List Char → Option (Tree × List Char)
  | '0' :: 'x' :: rest => based? 16 rest
  | '0' :: 'o' :: rest => based? 8 rest
  | '0' :: 'b' :: rest => based? 2 rest
  | s => (special? s).orElse fun _ => decimal? s

-- ---------------------------------------------------------------------------
-- Dates and times
-- ---------------------------------------------------------------------------

/-- The number of exactly `n` digits within bounds, and what follows. -/
def within? (n low high : Nat) (s : List Char) : Option (Nat × List Char) := do
  let ds ← Text.Numeral.digits? 10 (s.take n)
  let k := Numeral.value ds
  if ds.length = n ∧ low ≤ k ∧ k ≤ high then some (k, s.drop n) else none

def after? (c : Char) : List Char → Option (List Char)
  | d :: rest => if d = c then some rest else none
  | [] => none

def daysIn (year month : Nat) : Nat :=
  if month = 2 then
    if year % 4 = 0 ∧ (year % 100 ≠ 0 ∨ year % 400 = 0) then 29 else 28
  else if month = 4 ∨ month = 6 ∨ month = 9 ∨ month = 11 then 30
  else 31

/-- The text after a date. -/
def date? (s : List Char) : Option (List Char) := do
  let (year, s) ← within? 4 0 9999 s
  let (month, s) ← within? 2 1 12 (← after? '-' s)
  let (_, s) ← within? 2 1 (daysIn year month) (← after? '-' s)
  some s

def skipSecondFraction (s : List Char) : List Char :=
  match s with
  | '.' :: rest =>
    let after := rest.dropWhile fun c => (Numeral.digit? 10 c).isSome
    if after.length = rest.length then s else after
  | _ => s

/-- The text after a time of day. The last minute may have a leap second. -/
def time? (s : List Char) : Option (List Char) := do
  let (_, s) ← within? 2 0 23 s
  let (_, s) ← within? 2 0 59 (← after? ':' s)
  let (_, s) ← within? 2 0 60 (← after? ':' s)
  some (skipSecondFraction s)

def offset? : List Char → Option (List Char)
  | c :: rest =>
    if c = 'Z' ∨ c = 'z' then some rest
    else if c = '+' ∨ c = '-' then do
      let (_, s) ← within? 2 0 23 rest
      let (_, s) ← within? 2 0 59 (← after? ':' s)
      some s
    else none
  | [] => none

/-- The text after a time of day with an offset or without, after a date. -/
def timeOfDate? : List Char → Option (List Char)
  | c :: rest =>
    if c = 'T' ∨ c = 't' ∨ c = ' ' then (time? rest).map fun s => (offset? s).getD s
    else none
  | [] => none

def moment? (s : List Char) : Option (Tree × List Char) :=
  match date? s with
  | some rest => some (.moment, (timeOfDate? rest).getD rest)
  | none => (time? s).map (.moment, ·)

end GuestControl.Toml
