import GuestControl.Binary64
import GuestControl.Json.Doc
import GuestControl.Word

/-!
# JSON numbers

An integer literal that 64 bits can hold is read exactly, signed if that is
possible. Every other literal is read as a double: the leading digits that
fit 64 bits are kept, the others only counted, and the kept number is then
multiplied or divided by a power of ten, with one rounding for each step. A
literal too large for a double is refused.
-/

namespace GuestControl

namespace Json

inductive Number where
  | integer (i : Int64)
  | large (n : UInt64)
  | real (x : Binary64)
  deriving DecidableEq

namespace Number

/-- Takes digits into a number while it stays below 2⁶⁴. The rest is left over. -/
def absorb (kept : Nat) : List Digit → Nat × List Digit
  | [] => (kept, [])
  | d :: ds =>
    if kept * 10 + d.val < 18446744073709551616 then absorb (kept * 10 + d.val) ds
    else (kept, d :: ds)

/-- Divides by a power of ten, in steps of at most 10³⁰⁸. -/
def scaleDown (x : Binary64) (k : Nat) : Binary64 :=
  if k ≤ 308 then x.dividedBy (Binary64.powerOfTen k)
  else
    match x with
    | .finite _ 0 => x
    | _ => scaleDown (x.dividedBy (Binary64.powerOfTen 308)) (k - 308)
termination_by k

def scaleUp? (x : Binary64) (k : Nat) : Option Binary64 :=
  if k ≤ 308 then
    match x.times (Binary64.powerOfTen k) with
    | .infinite _ => none
    | y => some y
  else
    match x with
    | .finite _ 0 => some x
    | _ => none

def scaled? (negative : Bool) (kept : Nat) (exponent : Int) : Option Binary64 :=
  let x := Binary64.ofNat kept
  let y := match exponent with
    | .ofNat k => scaleUp? x k
    | .negSucc k => some (scaleDown x (k + 1))
  y.map fun y => if negative then y.negate else y

def statedExponent (l : Literal) : Int :=
  match l.exponent with
  | none => 0
  | some (false, ds) => (Text.Numeral.value ds : Int)
  | some (true, ds) => -(Text.Numeral.value ds : Int)

def real? (l : Literal) : Option Binary64 :=
  let (kept, whole) := absorb 0 l.whole
  let (kept, fraction) := absorb kept l.fraction
  let shift : Int := whole.length - (l.fraction.length - fraction.length : Int)
  scaled? l.negative kept (shift + statedExponent l)

/-- An integer literal that 64 bits can hold. A negative zero is not one. -/
def ofInteger? (l : Literal) : Option Number :=
  let n := Text.Numeral.value l.whole
  if l.negative then
    if n = 0 then none else (Word.int64? (-(n : Int))).map .integer
  else
    match Word.int64? n with
    | some i => some (.integer i)
    | none => (Word.uint64? n).map .large

def ofLiteral? (l : Literal) : Option Number :=
  if l.fraction.isEmpty ∧ l.exponent.isNone then
    match ofInteger? l with
    | some n => some n
    | none => (real? l).map .real
  else (real? l).map .real

def nat? : Number → Option Nat
  | integer i => Word.nat? i.toInt
  | large n => some n.toNat
  | real _ => none

def int? : Number → Option Int
  | integer i => some i.toInt
  | large n => some (n.toNat : Int)
  | real _ => none

end Number

end Json

end GuestControl
