/-!
# Comparison without regard to ASCII case

Only the letters `A` to `Z` have a second case here; every other character
is compared as it stands.
-/

namespace GuestControl.Text

def lowerChar (c : Char) : Char :=
  if 65 ≤ c.toNat ∧ c.toNat ≤ 90 then Char.ofNat (c.toNat + 32) else c

def lower (s : String) : String := String.ofList (s.toList.map lowerChar)

/-- The same text up to the case of ASCII letters. -/
def sameLetters (a b : String) : Bool := a.toList.map lowerChar == b.toList.map lowerChar

end GuestControl.Text
