/-!
# The order of names

Names are ordered by the code points of their characters, first difference
first; this is also the order of their UTF-8 octets.
-/

namespace GuestControl.Text

def charsBefore : List Char → List Char → Bool
  | _, [] => false
  | [], _ :: _ => true
  | a :: as, b :: bs =>
    if a.toNat < b.toNat then true
    else if b.toNat < a.toNat then false
    else charsBefore as bs

def before (a b : String) : Bool := charsBefore a.toList b.toList

end GuestControl.Text
