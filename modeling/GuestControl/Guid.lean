import GuestControl.SortedMap
import GuestControl.Text.Ascii
import GuestControl.Text.Numeral

/-!
# Globally unique identifiers

An identifier is 32 hexadecimal digits. Its text groups them 8-4-4-4-12 with
hyphens, in small letters. On input the hyphens may be missing; the grouped
form may stand in braces or after `urn:uuid:`; letters may be of either case,
those of the prefix too.
Reading the written text gives the identifier back (`parse?_text`).
-/

namespace GuestControl

structure Guid where
  digits : List (Fin 16)
  length_digits : digits.length = 32
  deriving DecidableEq

namespace Guid

def nil : Guid := ⟨List.replicate 32 ⟨0, Nat.succ_pos 15⟩, List.length_replicate⟩

instance : Inhabited Guid := ⟨nil⟩

def isNil (g : Guid) : Bool := g.digits.all (·.val == 0)

def ofDigits? (ds : List (Fin 16)) : Option Guid :=
  if h : ds.length = 32 then some ⟨ds, h⟩ else none

def digitsBefore : List (Fin 16) → List (Fin 16) → Bool
  | a :: as, b :: bs =>
    if a.val < b.val then true
    else if b.val < a.val then false
    else digitsBefore as bs
  | _, _ => false

def before (a b : Guid) : Bool := digitsBefore a.digits b.digits

-- ---------------------------------------------------------------------------
-- Text
-- ---------------------------------------------------------------------------

def groups : List Nat := [8, 4, 4, 4, 12]

def total : List Nat → Nat
  | [] => 0
  | n :: ns => n + total ns

def hyphenate : List Nat → List Char → List Char
  | [], s => s
  | [_], s => s
  | n :: ns, s => s.take n ++ '-' :: hyphenate ns (s.drop n)

/-- Takes the hyphens out again; nothing if they are not where the sizes say. -/
def unhyphenate? : List Nat → List Char → Option (List Char)
  | [], s => if s.isEmpty then some [] else none
  | [n], s => if s.length = n then some s else none
  | n :: ns, s =>
    match s.drop n with
    | '-' :: rest => (unhyphenate? ns rest).map (s.take n ++ ·)
    | _ => none

def chars (g : Guid) : List Char := g.digits.map (Text.Numeral.digitChar ·.val)

def text (g : Guid) : String := String.ofList (hyphenate groups g.chars)

instance : ToString Guid := ⟨text⟩

def plain? (s : List Char) : Option Guid := (Text.Numeral.digits? 16 s).bind ofDigits?

def grouped? (s : List Char) : Option Guid := (unhyphenate? groups s).bind plain?

/-- What the grouped form may stand after, in any case. -/
def urnPrefix : List Char := "urn:uuid:".toList

def parseChars? (s : List Char) : Option Guid :=
  if s.length = 32 then plain? s
  else if s.length = 36 then grouped? s
  else if s.length = 38 ∧ s.head? = some '\x7b' ∧ s.getLast? = some '\x7d' then
    grouped? (s.drop 1).dropLast
  else if s.length = 45 ∧ (s.take 9).map Text.lowerChar = urnPrefix then grouped? (s.drop 9)
  else none

def parse? (s : String) : Option Guid := parseChars? s.toList

-- ---------------------------------------------------------------------------
-- Laws
-- ---------------------------------------------------------------------------

theorem length_chars (g : Guid) : g.chars.length = 32 := by
  simp [chars, g.length_digits]

theorem digits?_chars (ds : List (Fin 16)) :
    Text.Numeral.digits? 16 (ds.map (Text.Numeral.digitChar ·.val)) = some ds := by
  induction ds with
  | nil => rfl
  | cons d ds ih =>
    simp only [Text.Numeral.digits?] at ih
    simp [Text.Numeral.digits?, List.mapM_cons, Text.Numeral.digit?_digitChar, ih]

theorem plain?_chars (g : Guid) : plain? g.chars = some g := by
  simp [plain?, chars, digits?_chars, ofDigits?, g.length_digits]

theorem unhyphenate?_hyphenate (n : Nat) (ns : List Nat) (s : List Char)
    (h : s.length = total (n :: ns)) :
    unhyphenate? (n :: ns) (hyphenate (n :: ns) s) = some s := by
  induction ns generalizing n s with
  | nil => simp_all [hyphenate, unhyphenate?, total]
  | cons m ns ih =>
    simp only [total] at h
    have hl : (s.take n).length = n := by simp; omega
    have hd : (s.drop n).length = total (m :: ns) := by simp [total, h]
    simp only [hyphenate, unhyphenate?]
    rw [List.drop_append_of_le_length (by omega), List.drop_of_length_le (by omega),
      List.take_append_of_le_length (by omega), List.take_of_length_le (by omega)]
    simp [ih m (s.drop n) hd]

theorem grouped?_text (g : Guid) : grouped? (hyphenate groups g.chars) = some g := by
  have := unhyphenate?_hyphenate 8 [4, 4, 4, 12] g.chars (by simp [length_chars, total])
  simp [grouped?, groups, this, plain?_chars]

theorem length_hyphenate (g : Guid) : (hyphenate groups g.chars).length = 36 := by
  simp [groups, hyphenate, length_chars]

theorem parse?_text (g : Guid) : parse? g.text = some g := by
  simp [parse?, text, parseChars?, length_hyphenate, grouped?_text]

theorem text_injective {a b : Guid} (h : a.text = b.text) : a = b := by
  have := congrArg parse? h
  rwa [parse?_text, parse?_text, Option.some.injEq] at this

-- ---------------------------------------------------------------------------
-- The order
-- ---------------------------------------------------------------------------

theorem digitsBefore_irrefl (as : List (Fin 16)) : digitsBefore as as = false := by
  induction as with
  | nil => rfl
  | cons a as ih => simp [digitsBefore, ih]

theorem digitsBefore_cons {a b : Fin 16} {as bs : List (Fin 16)} :
    digitsBefore (a :: as) (b :: bs) = true ↔
      a.val < b.val ∨ a.val = b.val ∧ digitsBefore as bs = true := by
  simp only [digitsBefore]
  split
  · simp [*]
  · split
    · have : ¬ a.val = b.val := by omega
      simp [*]
    · have : a.val = b.val := by omega
      simp [*]

theorem digitsBefore_trans {as bs cs : List (Fin 16)} (hab : digitsBefore as bs = true)
    (hbc : digitsBefore bs cs = true) : digitsBefore as cs = true := by
  induction as generalizing bs cs with
  | nil => simp [digitsBefore] at hab
  | cons a as ih =>
    cases bs with
    | nil => simp [digitsBefore] at hab
    | cons b bs =>
      cases cs with
      | nil => simp [digitsBefore] at hbc
      | cons c cs =>
        rw [digitsBefore_cons] at hab hbc ⊢
        rcases hab with hab | ⟨hab, has⟩ <;> rcases hbc with hbc | ⟨hbc, hbs⟩
        · exact .inl (by omega)
        · exact .inl (by omega)
        · exact .inl (by omega)
        · exact .inr ⟨hab.trans hbc, ih has hbs⟩

theorem digitsBefore_total {as bs : List (Fin 16)} (hl : as.length = bs.length) (hne : as ≠ bs) :
    digitsBefore as bs = true ∨ digitsBefore bs as = true := by
  induction as generalizing bs with
  | nil =>
    cases bs with
    | nil => exact absurd rfl hne
    | cons b bs => simp at hl
  | cons a as ih =>
    cases bs with
    | nil => simp at hl
    | cons b bs =>
      simp only [digitsBefore_cons]
      rcases Nat.lt_trichotomy a.val b.val with h | h | h
      · exact .inl (.inl h)
      · have hne : as ≠ bs := fun he => hne (by rw [he, Fin.ext h])
        exact (ih (Nat.succ.inj hl) hne).imp (.inr ⟨h, ·⟩) (.inr ⟨h.symm, ·⟩)
      · exact .inr (.inl h)

theorem isOrder_before : SortedMap.IsOrder before where
  irrefl g := digitsBefore_irrefl g.digits
  trans _ _ _ := digitsBefore_trans
  total a b hne := by
    refine digitsBefore_total (by rw [a.length_digits, b.length_digits]) fun he => hne ?_
    cases a
    cases b
    cases he
    rfl

end Guid

end GuestControl
