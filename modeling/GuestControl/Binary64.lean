import GuestControl.Text.Numeral
import GuestControl.Word

/-!
# Double precision numbers

A finite double is a sign and a whole number of the smallest unit, 2⁻¹⁰⁷⁴,
so that equal magnitudes have one form and every comparison is one of
natural numbers. Arithmetic is exact on quotients of natural numbers,
followed by one rounding to the nearest double, a tie to the even one.
-/

namespace GuestControl

inductive Binary64 where
  | nan
  | infinite (negative : Bool)
  /-- The number `±units · 2⁻¹⁰⁷⁴`. -/
  | finite (negative : Bool) (units : Nat)
  deriving DecidableEq, Repr, Inhabited

namespace Binary64

def one : Nat := Nat.pow 2 1074

/-- The first magnitude, in smallest units, that no finite double has. -/
def limit : Nat := Nat.pow 2 2098

/-- The natural number nearest to `num / den`, a tie to the even one. -/
def nearest (num den : Nat) : Nat :=
  let q := num / den
  let r := num % den
  if 2 * r < den then q
  else if den < 2 * r then q + 1
  else q + q % 2

/-- How many bits of a magnitude in units lie below its 53 leading ones. -/
def spare (units : Nat) : Nat := units.log2 - 52

/-- The magnitude, in units, nearest to `num / den` units among those of 53 bits. -/
def roundUnits (num den : Nat) : Nat :=
  let p := spare (num / den)
  nearest num (den * Nat.pow 2 p) * Nat.pow 2 p

/-- The double nearest to `±num / den` units; infinite from the limit on. -/
def round (negative : Bool) (num den : Nat) : Binary64 :=
  let units := roundUnits num den
  if units < limit then finite negative units else infinite negative

def zero : Binary64 := finite false 0

def ofNat (n : Nat) : Binary64 := round false (n * one) 1

def negate : Binary64 → Binary64
  | nan => nan
  | infinite s => infinite !s
  | finite s u => finite (!s) u

def times (x : Binary64) (units : Nat) : Binary64 :=
  match x with
  | finite s u => round s (u * units) one
  | other => other

def dividedBy (x : Binary64) (units : Nat) : Binary64 :=
  match x with
  | finite s u => round s (u * one) units
  | other => other

def integer? : Binary64 → Option Int
  | finite s u =>
    if u % one = 0 then some (if s then -((u / one : Nat) : Int) else ((u / one : Nat) : Int))
    else none
  | _ => none

def truncated (negative : Bool) (units : Nat) : Int :=
  if negative then -((units / one : Nat) : Int) else ((units / one : Nat) : Int)

/-- The cast to a signed word; what is no number becomes zero. -/
def toInt64 : Binary64 → Int64
  | nan => 0
  | infinite s => if s then Int64.minValue else Int64.maxValue
  | finite s u => Word.castInt64 (truncated s u)

def toUInt64 : Binary64 → UInt64
  | nan => 0
  | infinite s => if s then 0 else 18446744073709551615
  | finite s u => Word.castUInt64 (truncated s u)

theorem eq_truncated {x : Binary64} {i : Int} (h : x.integer? = some i) :
    ∃ s u, x = finite s u ∧ i = truncated s u := by
  cases x with
  | nan | infinite _ => cases h
  | finite s u =>
    rw [integer?] at h
    by_cases hwhole : u % one = 0
    · rw [if_pos hwhole] at h
      exact ⟨s, u, rfl, (Option.some.inj h).symm⟩
    · rw [if_neg hwhole] at h
      cases h

-- ---------------------------------------------------------------------------
-- Decimal input
-- ---------------------------------------------------------------------------

def powerOfTen (k : Nat) : Nat := roundUnits (Nat.pow 10 k * one) 1

/-- The double nearest to `± digits · 10^exponent`. Far outside the range of
doubles the power is not computed. -/
def ofDecimal (negative : Bool) (digits : List (Fin 10)) (exponent : Int) : Binary64 :=
  let m := Text.Numeral.value digits
  if m = 0 then finite negative 0
  else if 400 < exponent then infinite negative
  else if exponent + digits.length < -400 then finite negative 0
  else if 0 ≤ exponent then round negative (m * Nat.pow 10 exponent.toNat * one) 1
  else round negative (m * one) (Nat.pow 10 (-exponent).toNat)

end Binary64

end GuestControl
