import GuestControl.Binary64

/-!
# Shortest decimal text

A double is written with the fewest digits that read back as the same
double; of the numbers with so many digits, the one nearest to it. The text
is positional whatever the size, without a fraction for whole numbers, and
keeps the sign of a negative zero.
-/

namespace GuestControl.Binary64

/-- The numbers, in quarters of a unit, that round to a magnitude. -/
structure Basin where
  low : Nat
  high : Nat
  closed : Bool

/-- The basin of `units > 0`: half way to each neighbour, where the lower
neighbour is nearer below a power of two. The ends belong to it if the
significand is even. -/
def basin (units : Nat) : Basin :=
  let p := spare units
  let step := Nat.pow 2 p
  let m := units / step
  let below := if m = Nat.pow 2 52 ∧ 0 < p then step else 2 * step
  { low := 4 * units - below, high := 4 * units + 2 * step, closed := m % 2 == 0 }

structure Decimal where
  digits : Nat
  exponent : Int
  deriving DecidableEq, Repr

/-- `a · 10^e` compared with `b` quarters of a unit, both made whole. -/
def Decimal.scale (e : Int) (a b : Nat) : Nat × Nat :=
  if 0 ≤ e then (a * Nat.pow 10 e.toNat * (4 * one), b)
  else (a * (4 * one), b * Nat.pow 10 (-e).toNat)

def Basin.holds (g : Basin) (d : Decimal) : Bool :=
  let (l, gl) := Decimal.scale d.exponent d.digits g.low
  let (h, gh) := Decimal.scale d.exponent d.digits g.high
  if g.closed then gl ≤ l && h ≤ gh else gl < l && h < gh

def leading (units : Nat) : Int :=
  if one ≤ units then ((Text.Numeral.decimalDigits (units / one)).length : Int) - 1
  else
    let inverse := (one + units - 1) / units
    let k := (Text.Numeral.decimalDigits inverse).length
    if one ≤ units * Nat.pow 10 (k - 1) then -((k : Int) - 1) else -(k : Int)

def neighbours (units : Nat) (e : Int) : List Decimal :=
  let (num, den) := if 0 ≤ e then (units, Nat.pow 10 e.toNat * one)
    else (units * Nat.pow 10 (-e).toNat, one)
  let q := num / den
  if 2 * (num % den) < den then [⟨q, e⟩, ⟨q + 1, e⟩] else [⟨q + 1, e⟩, ⟨q, e⟩]

/-- The first decimal that reads back, trying `count` numbers of digits
beginning with exponent `e`. -/
def shortestFrom (units : Nat) (g : Basin) : Nat → Int → Decimal
  | 0, e => (neighbours units e).headD ⟨0, 0⟩
  | count + 1, e =>
    match (neighbours units e).find? g.holds with
    | some d => d
    | none => shortestFrom units g count (e - 1)

def shortest (units : Nat) : Decimal :=
  shortestFrom units (basin units) 17 (leading units)

def Decimal.positional (d : Decimal) : String :=
  let ds := Text.Numeral.decimalChars d.digits
  if 0 ≤ d.exponent then String.ofList (ds ++ List.replicate d.exponent.toNat '0')
  else
    let places := (-d.exponent).toNat
    let padded := List.replicate (places + 1 - ds.length) '0' ++ ds
    let whole := padded.take (padded.length - places)
    let fraction := padded.drop (padded.length - places)
    let kept := (fraction.reverse.dropWhile (· == '0')).reverse
    String.ofList (if kept.isEmpty then whole else whole ++ '.' :: kept)

def text : Binary64 → String
  | nan => "NaN"
  | infinite false => "inf"
  | infinite true => "-inf"
  | finite s u =>
    let magnitude := if u = 0 then "0" else (shortest u).positional
    if s then "-" ++ magnitude else magnitude

end GuestControl.Binary64
