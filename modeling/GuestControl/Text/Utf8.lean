/-!
# Octets as text

`scan` reads octets as UTF-8. A well-formed sequence gives its character;
the longest stretch of octets that begins a sequence and cannot be completed
gives one `none`. The lenient reading puts U+FFFD for each `none`, the strict
reading refuses the octets when there is one.
-/

namespace GuestControl.Text

/-- Text in which ill-formed octets may occur, each stretch of them as one `none`. -/
abbrev Source := List (Option Char)

namespace Source

def ofString (s : String) : Source := s.toList.map some

/-- The text with U+FFFD for what is ill formed. -/
def lenient (s : Source) : String := String.ofList (s.map (·.getD (Char.ofNat 0xFFFD)))

def strict? (s : Source) : Option String := (s.mapM id).map String.ofList

end Source

namespace Utf8

/-- What a first octet announces: how many octets follow, the bits that it
contributes, and the range of the second octet. -/
structure Lead where
  follow : Nat
  bits : Nat
  low : Nat := 0x80
  high : Nat := 0xBF

/-- The announcement of a first octet above 0x7F. The narrowed ranges shut out
overlong forms, surrogates and code points above U+10FFFF. -/
def lead? (b : Nat) : Option Lead :=
  if b < 0xC2 then none
  else if b < 0xE0 then some { follow := 1, bits := b - 0xC0 }
  else if b = 0xE0 then some { follow := 2, bits := 0, low := 0xA0 }
  else if b = 0xED then some { follow := 2, bits := 0xD, high := 0x9F }
  else if b < 0xF0 then some { follow := 2, bits := b - 0xE0 }
  else if b = 0xF0 then some { follow := 3, bits := 0, low := 0x90 }
  else if b < 0xF4 then some { follow := 3, bits := b - 0xF0 }
  else if b = 0xF4 then some { follow := 3, bits := 4, high := 0x8F }
  else none

/-- A sequence under way: the bits so far and what is still to come. -/
inductive Progress where
  | between
  | within (bits : Nat) (left : Nat) (low high : Nat)

/-- Reads octet by octet; an octet that cannot continue a sequence ends it as
ill formed and is read again as a first octet. -/
def scanFrom : Progress → List UInt8 → Source
  | .between, [] => []
  | .within .., [] => [none]
  | .between, b :: rest =>
    if b.toNat < 0x80 then some (Char.ofNat b.toNat) :: scanFrom .between rest
    else match lead? b.toNat with
      | some l => scanFrom (.within l.bits l.follow l.low l.high) rest
      | none => none :: scanFrom .between rest
  | .within bits left low high, b :: rest =>
    if low ≤ b.toNat ∧ b.toNat ≤ high then
      let bits := bits * 64 + (b.toNat - 0x80)
      if left ≤ 1 then some (Char.ofNat bits) :: scanFrom .between rest
      else scanFrom (.within bits (left - 1) 0x80 0xBF) rest
    else if b.toNat < 0x80 then none :: some (Char.ofNat b.toNat) :: scanFrom .between rest
    else match lead? b.toNat with
      | some l => none :: scanFrom (.within l.bits l.follow l.low l.high) rest
      | none => none :: none :: scanFrom .between rest

def scan (octets : List UInt8) : Source := scanFrom .between octets

def lenient (octets : List UInt8) : String := (scan octets).lenient

def strict? (octets : List UInt8) : Option String := (scan octets).strict?

def encode (s : String) : List UInt8 := s.toUTF8.data.toList

end Utf8

end GuestControl.Text
