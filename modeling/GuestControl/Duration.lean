import GuestControl.Text.Numeral

/-!
# Durations

Whole nanoseconds. The text uses the largest unit of which the duration
holds at least one, with as many decimal places as it needs.
-/

namespace GuestControl

structure Duration where
  nanoseconds : Nat
  deriving DecidableEq, Repr, Inhabited

namespace Duration

def ofSeconds (n : Nat) : Duration := ⟨n * 1000000000⟩

def ofMilliseconds (n : Nat) : Duration := ⟨n * 1000000⟩

/-- `n / 10^places` with the trailing zeros of the fraction left out. -/
def fractional (n places : Nat) : String :=
  let scale := Nat.pow 10 places
  let whole := Text.Numeral.decimal (n / scale)
  let ds := Text.Numeral.decimalChars (n % scale)
  let padded := List.replicate (places - ds.length) '0' ++ ds
  let kept := (padded.reverse.dropWhile (· == '0')).reverse
  if kept.isEmpty then whole else whole ++ "." ++ String.ofList kept

def text (d : Duration) : String :=
  let n := d.nanoseconds
  if 1000000000 ≤ n then fractional n 9 ++ "s"
  else if 1000000 ≤ n then fractional n 6 ++ "ms"
  else if 1000 ≤ n then fractional n 3 ++ "µs"
  else Text.Numeral.decimal n ++ "ns"

end Duration

end GuestControl
