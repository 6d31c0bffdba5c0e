import GuestControl.Json.Reading
import GuestControl.Proofs.Text.Numerals

/-!
# Written documents read back

The text of a document is read as that document, whatever follows it, provided that a
number is not followed by something that could belong to it. Every document can be
written whose strings are text and whose numbers obey the grammar.
-/

namespace GuestControl.Json

open Text (Source)
open Text.Numeral (digit? digits? digitChar)

variable {c : Char} {s rest after : Source} {l : Literal} {ds : List Digit} {d : Doc}
  {items : List Doc} {ms : List (Option String × Doc)} {key : Option String} {fuel : Nat}

-- ---------------------------------------------------------------------------
-- Strings
-- ---------------------------------------------------------------------------

theorem pieces?_plain (hquote : c ≠ '\x22') (hslash : c ≠ '\\') (hprint : ¬ c.toNat < 32) :
    pieces? (some c :: s) = (pieces? s).map fun p => (.char c :: p.1, p.2) := by
  rw [pieces?, if_neg hprint]
  · cases pieces? s with
    | none => rfl
    | some p => rfl
  · exact hquote
  · exact fun _ _ _ _ _ _ hc => hslash hc
  · exact fun _ _ _ hc => hslash hc
  · exact hslash

theorem pieces?_letter {e : Char} (he : escaped? e = some c) (hu : e ≠ 'u') :
    pieces? (some '\\' :: some e :: s) = (pieces? s).map fun p => (.char c :: p.1, p.2) := by
  rw [pieces?, he]
  · cases pieces? s with
    | none => rfl
    | some p => rfl
  · exact fun _ _ _ _ _ _ hc => hu hc

theorem pieces?_code {a b c' d' : Char} {n : Nat}
    (hn : code? [some a, some b, some c', some d'] = some n) :
    pieces? (some '\\' :: some 'u' :: some a :: some b :: some c' :: some d' :: s) =
      (pieces? s).map fun p => (Piece.ofCode n :: p.1, p.2) := by
  rw [pieces?, hn]
  cases pieces? s with
  | none => rfl
  | some p => rfl

theorem code?_control (hcontrol : c.toNat < 32) :
    code? [some '0', some '0', some (digitChar (c.toNat / 16)), some (digitChar (c.toNat % 16))] =
      some c.toNat := by
  have hhigh : digit? 16 (digitChar (c.toNat / 16)) = some ⟨c.toNat / 16, by omega⟩ :=
    Text.Numeral.digit?_digitChar ⟨c.toNat / 16, by omega⟩
  have hlow : digit? 16 (digitChar (c.toNat % 16)) = some ⟨c.toNat % 16, by omega⟩ :=
    Text.Numeral.digit?_digitChar ⟨c.toNat % 16, by omega⟩
  have hzero : digit? 16 '0' = some 0 := rfl
  have hvalue : c.toNat / 16 * 16 + c.toNat % 16 = c.toNat := by omega
  simp [code?, digits?, hhigh, hlow, hzero, Text.Numeral.value, hvalue]

theorem pieces?_escape (c : Char) (s : Source) : pieces? ((Doc.escape c).map some ++ s) =
    (pieces? s).map fun p => (.char c :: p.1, p.2) := by
  unfold Doc.escape
  split_ifs with hquote hslash hb ht hn hf hr hcontrol
  · subst hquote
    exact pieces?_letter rfl (by decide)
  · subst hslash
    exact pieces?_letter rfl (by decide)
  · subst hb
    exact pieces?_letter rfl (by decide)
  · subst ht
    exact pieces?_letter rfl (by decide)
  · subst hn
    exact pieces?_letter rfl (by decide)
  · subst hf
    exact pieces?_letter rfl (by decide)
  · subst hr
    exact pieces?_letter rfl (by decide)
  · have hpiece : Piece.ofCode c.toNat = .char c := by
      rw [Piece.ofCode, if_neg (by omega), Char.ofNat_toNat]
    rw [← hpiece]
    exact pieces?_code (code?_control hcontrol)
  · exact pieces?_plain hquote hslash hcontrol

theorem joinPieces_char (text : List Char) : joinPieces (text.map .char) = some text := by
  induction text with
  | nil => rfl
  | cons c text ih =>
    rw [List.map_cons, joinPieces, ih]
    rfl

theorem string?_quoted (text : List Char) (s : Source) :
    string? ((text.flatMap Doc.escape).map some ++ some '\x22' :: s) =
      some (some (String.ofList text), s) := by
  have hpieces : pieces? ((text.flatMap Doc.escape).map some ++ some '\x22' :: s) =
      some (text.map .char, s) := by
    induction text with
    | nil => rw [List.flatMap_nil, List.map_nil, List.nil_append, pieces?, List.map_nil]
    | cons c text ih =>
      rw [List.flatMap_cons, List.map_append, List.append_assoc, pieces?_escape, ih]
      rfl
  simp only [string?, hpieces, Option.map_some, joinPieces_char]

-- ---------------------------------------------------------------------------
-- Numbers
-- ---------------------------------------------------------------------------

/-- The literal obeys the grammar: digits before the point, of which the first is no zero
unless it is the only one, and digits in the exponent if there is one. -/
structure Literal.WellFormed (l : Literal) : Prop where
  whole : l.whole ≠ []
  leading : l.whole.head? = some 0 → l.whole.length = 1
  exponent : ∀ negative ds, l.exponent = some (negative, ds) → ds ≠ []

def NoDigit (s : Source) : Prop := ∀ c t, s = some c :: t → digit? 10 c = none

/-- The text does not begin with what could belong to a number before it. -/
def EndsNumber (s : Source) : Prop :=
  ∀ c t, s = some c :: t → digit? 10 c = none ∧ c ≠ '.' ∧ c ≠ 'e' ∧ c ≠ 'E'

theorem EndsNumber.noDigit (h : EndsNumber s) : NoDigit s := fun c t hs => (h c t hs).1

theorem endsNumber_nil : EndsNumber [] := nofun

theorem noDigit_cons (h : digit? 10 c = none) : NoDigit (some c :: s) := by
  intro c' t hs
  cases hs
  exact h

theorem takeDigits_of_noDigit (h : NoDigit s) : takeDigits s = ([], s) := by
  unfold takeDigits
  split
  · rw [h _ _ rfl]
  · rfl

theorem takeDigits_digitChars (ds : List Digit) (h : NoDigit rest) :
    takeDigits ((Literal.digitChars ds).map some ++ rest) = (ds, rest) := by
  induction ds with
  | nil => exact takeDigits_of_noDigit h
  | cons d ds ih =>
    have hd : digit? 10 (digitChar d.val) = some d := Text.Numeral.digit?_decimal d
    have hcons : (Literal.digitChars (d :: ds)).map some ++ rest =
        some (digitChar d.val) :: ((Literal.digitChars ds).map some ++ rest) := rfl
    rw [hcons, takeDigits, hd]
    simp only [ih]

def Literal.fractionChars (l : Literal) : List Char :=
  if l.fraction.isEmpty then [] else '.' :: digitChars l.fraction

def Literal.exponentChars (l : Literal) : List Char :=
  match l.exponent with
  | none => []
  | some (negative, ds) => 'e' :: (if negative then ['-'] else []) ++ digitChars ds

theorem Literal.render_eq (l : Literal) : l.render =
    (if l.negative then ['-'] else []) ++ (digitChars l.whole ++
      (l.fractionChars ++ l.exponentChars)) := by
  cases hexponent : l.exponent with
  | none => simp [render, fractionChars, exponentChars, hexponent]
  | some e => simp [render, fractionChars, exponentChars, hexponent]

theorem digitChar_ne (d : Digit) : digitChar d.val ≠ '-' ∧ digitChar d.val ≠ '+' := by
  revert d
  decide

theorem takeMinus_digitChars (hds : ds ≠ []) (s : Source) :
    takeMinus ((Literal.digitChars ds).map some ++ s) =
      (false, (Literal.digitChars ds).map some ++ s) := by
  obtain ⟨d, ds, rfl⟩ := List.exists_cons_of_ne_nil hds
  rw [takeMinus]
  rintro t ht
  exact (digitChar_ne d).1 (Option.some.inj (List.cons.inj ht).1)

theorem takeSign_digitChars (hds : ds ≠ []) (s : Source) :
    takeSign ((Literal.digitChars ds).map some ++ s) =
      (false, (Literal.digitChars ds).map some ++ s) := by
  obtain ⟨d, ds, rfl⟩ := List.exists_cons_of_ne_nil hds
  rw [takeSign]
  · rintro t ht
    exact (digitChar_ne d).1 (Option.some.inj (List.cons.inj ht).1)
  · rintro t ht
    exact (digitChar_ne d).2 (Option.some.inj (List.cons.inj ht).1)

theorem takeExponent_exponentChars (h : l.WellFormed) (hrest : EndsNumber rest) :
    takeExponent (l.exponentChars.map some ++ rest) = some (l.exponent, rest) := by
  unfold Literal.exponentChars
  cases hexponent : l.exponent with
  | none =>
    change takeExponent rest = _
    unfold takeExponent
    split
    · rename_i c t
      obtain ⟨-, -, he, hE⟩ := hrest c t rfl
      rw [if_neg (by simp [he, hE])]
    · rfl
  | some e =>
    obtain ⟨negative, ds⟩ := e
    have hds := h.exponent _ _ hexponent
    have hsign : takeSign ((if negative then ['-'] else []).map some ++
        ((Literal.digitChars ds).map some ++ rest)) =
          (negative, (Literal.digitChars ds).map some ++ rest) := by
      cases negative with
      | true => rfl
      | false => exact takeSign_digitChars hds rest
    have hcons : (('e' :: (if negative then ['-'] else []) ++ Literal.digitChars ds).map some ++
        rest) = some 'e' :: ((if negative then ['-'] else []).map some ++
          ((Literal.digitChars ds).map some ++ rest)) := by simp
    obtain ⟨d, ds, rfl⟩ := List.exists_cons_of_ne_nil hds
    simp only [hcons, takeExponent, true_or, if_true, hsign,
      takeDigits_digitChars _ hrest.noDigit]

theorem takeFraction_fractionChars (hdigit : NoDigit rest) (hpoint : ∀ t, rest ≠ some '.' :: t) :
    takeFraction (l.fractionChars.map some ++ rest) = some (l.fraction, rest) := by
  unfold Literal.fractionChars
  cases hfraction : l.fraction with
  | nil =>
    change takeFraction rest = _
    unfold takeFraction
    split
    · exact absurd rfl (hpoint _)
    · rfl
  | cons d ds =>
    have hcons : ('.' :: Literal.digitChars (d :: ds)).map some ++ rest =
        some '.' :: ((Literal.digitChars (d :: ds)).map some ++ rest) := rfl
    rw [List.isEmpty_cons, if_neg Bool.false_ne_true, hcons, takeFraction,
      takeDigits_digitChars _ hdigit]

theorem exponent_endsWhole (hrest : EndsNumber rest) :
    NoDigit (l.exponentChars.map some ++ rest) ∧
      ∀ t, l.exponentChars.map some ++ rest ≠ some '.' :: t := by
  unfold Literal.exponentChars
  cases l.exponent with
  | none => exact ⟨hrest.noDigit, fun t ht => (hrest _ t ht).2.1 rfl⟩
  | some e => exact ⟨noDigit_cons rfl, nofun⟩

theorem fraction_noDigit (h : NoDigit s) : NoDigit (l.fractionChars.map some ++ s) := by
  unfold Literal.fractionChars
  cases l.fraction with
  | nil => exact h
  | cons d ds => exact noDigit_cons rfl

theorem literal?_render (h : l.WellFormed) (hrest : EndsNumber rest) :
    literal? (l.render.map some ++ rest) = some (l, rest) := by
  obtain ⟨hexponent, hpoint⟩ := exponent_endsWhole (l := l) hrest
  have hminus : takeMinus (l.render.map some ++ rest) = (l.negative,
      (Literal.digitChars l.whole).map some ++
        (l.fractionChars.map some ++ (l.exponentChars.map some ++ rest))) := by
    rw [l.render_eq]
    simp only [List.map_append, List.append_assoc]
    cases l.negative with
    | true => rfl
    | false => exact takeMinus_digitChars h.whole _
  have hdigits := takeDigits_digitChars l.whole (fraction_noDigit (l := l) hexponent)
  have hgrammar : ¬ (l.whole.isEmpty = true ∨
      (l.whole.head?.map (·.val)) = some 0 ∧ l.whole.length ≠ 1) := by
    rintro (hempty | ⟨hzero, hlong⟩)
    · exact h.whole (List.isEmpty_iff.mp hempty)
    · obtain ⟨d, hd, hvalue⟩ := Option.map_eq_some_iff.mp hzero
      obtain rfl : d = 0 := Fin.ext hvalue
      exact hlong (h.leading hd)
  simp only [literal?, hminus, hdigits, if_neg hgrammar,
    takeFraction_fractionChars hexponent hpoint, takeExponent_exponentChars h hrest,
    Option.bind_some, Option.map_some]

-- ---------------------------------------------------------------------------
-- Documents
-- ---------------------------------------------------------------------------

mutual

/-- Every string in the document is text and every number obeys the grammar. -/
def Doc.Writable : Doc → Prop
  | .null | .bool _ => True
  | .number l => l.WellFormed
  | .string content => content.isSome = true
  | .array items => WritableItems items
  | .object members => WritableMembers members
  | .broken => False

def Doc.WritableItems : List Doc → Prop
  | [] => True
  | d :: rest => d.Writable ∧ WritableItems rest

def Doc.WritableMembers : List (Option String × Doc) → Prop
  | [] => True
  | (key, d) :: rest => key.isSome = true ∧ d.Writable ∧ WritableMembers rest

end

/-- What a written document can begin with: neither a blank nor the end of an array. -/
def IsStart (c : Char) : Prop := isSpace (some c) = false ∧ c ≠ ']'

instance (c : Char) : Decidable (IsStart c) := inferInstanceAs (Decidable (_ ∧ _))

theorem skipSpace_cons (h : isSpace (some c) = false) : skipSpace (some c :: s) = some c :: s :=
  List.dropWhile_cons_of_neg (by simp [h])

theorem isStart_digitChar (d : Digit) : IsStart (digitChar d.val) := by
  revert d
  decide

theorem Literal.render_start (h : l.WellFormed) :
    ∃ c t, l.render = c :: t ∧ (c = '-' ∨ ∃ d : Digit, c = digitChar d.val) := by
  obtain ⟨d, ds, hwhole⟩ := List.exists_cons_of_ne_nil h.whole
  rw [l.render_eq, hwhole]
  cases l.negative with
  | true => exact ⟨_, _, rfl, .inl rfl⟩
  | false => exact ⟨_, _, rfl, .inr ⟨d, rfl⟩⟩

theorem Doc.chars_start (h : d.Writable) : ∃ c t, d.chars = c :: t ∧ IsStart c := by
  cases d with
  | null | string _ | array _ | object _ => exact ⟨_, _, rfl, by decide⟩
  | bool b =>
    cases b with
    | _ => exact ⟨_, _, rfl, by decide⟩
  | number l =>
    obtain ⟨c, t, hrender, rfl | ⟨d, rfl⟩⟩ := Literal.render_start h
    · exact ⟨_, t, hrender, by decide⟩
    · exact ⟨_, t, hrender, isStart_digitChar d⟩
  | broken => exact h.elim

theorem number_start (hstart : c = '-' ∨ ∃ d : Digit, c = digitChar d.val) :
    isSpace (some c) = false ∧ c ∉ ['n', 't', 'f', '\x22', '[', '\x7b'] := by
  obtain rfl | ⟨d, rfl⟩ := hstart
  · decide
  · revert d
    decide

theorem valueFrom_number (hstart : c = '-' ∨ ∃ d : Digit, c = digitChar d.val)
    (h : literal? (some c :: s) = some (l, after)) :
    valueFrom (fuel + 1) (some c :: s) = (.number l, after) := by
  obtain ⟨hspace, hother⟩ := number_start hstart
  have hne (c' : Char) (hc' : c' ∈ ['n', 't', 'f', '\x22', '[', '\x7b']) {t : Source}
      (heq : some c :: s = some c' :: t) : False := by
    obtain rfl := Option.some.inj (List.cons.inj heq).1
    exact hother hc'
  rw [valueFrom, skipSpace_cons hspace]
  split
  · exact (hne 'n' (by decide) ‹_›).elim
  · exact (hne 't' (by decide) ‹_›).elim
  · exact (hne 'f' (by decide) ‹_›).elim
  · exact (hne '\x22' (by decide) ‹_›).elim
  · exact (hne '[' (by decide) ‹_›).elim
  · exact (hne '\x7b' (by decide) ‹_›).elim
  · rw [h]

theorem valueFrom_string {content : Option String} (h : string? s = some (content, after)) :
    valueFrom (fuel + 1) (some '\x22' :: s) = (.string content, after) := by
  rw [valueFrom, skipSpace_cons rfl]
  simp only [h]

theorem valueFrom_array (hc : IsStart c) (h : itemsFrom fuel (some c :: s) = (items, after)) :
    valueFrom (fuel + 1) (some '[' :: some c :: s) = (.array items, after) := by
  rw [valueFrom, skipSpace_cons rfl]
  simp only [skipSpace_cons hc.1]
  split
  · rename_i heq
    exact absurd (Option.some.inj (List.cons.inj heq).1) hc.2
  · rw [h]

theorem valueFrom_object (h : membersFrom fuel (some '\x22' :: s) = (ms, after)) :
    valueFrom (fuel + 1) (some '\x7b' :: some '\x22' :: s) = (.object ms, after) := by
  rw [valueFrom, skipSpace_cons rfl]
  simp only [skipSpace_cons (c := '\x22') rfl]
  split
  · rename_i heq
    cases heq
  · rw [h]

theorem itemsFrom_last (h : valueFrom fuel s = (d, some ']' :: after)) :
    itemsFrom (fuel + 1) s = ([d], after) := by
  rw [itemsFrom]
  simp only [h, skipSpace_cons (c := ']') rfl]

theorem itemsFrom_more (h : valueFrom fuel s = (d, some ',' :: rest))
    (hrest : itemsFrom fuel rest = (items, after)) :
    itemsFrom (fuel + 1) s = (d :: items, after) := by
  rw [itemsFrom]
  simp only [h, skipSpace_cons (c := ',') rfl, hrest]

theorem membersFrom_last (hkey : string? s = some (key, some ':' :: rest))
    (h : valueFrom fuel rest = (d, some '\x7d' :: after)) :
    membersFrom (fuel + 1) (some '\x22' :: s) = ([(key, d)], after) := by
  rw [membersFrom, skipSpace_cons rfl]
  simp only [hkey, skipSpace_cons (c := ':') rfl, h, skipSpace_cons (c := '\x7d') rfl]

theorem membersFrom_more {rest' : Source} (hkey : string? s = some (key, some ':' :: rest))
    (h : valueFrom fuel rest = (d, some ',' :: rest'))
    (hrest : membersFrom fuel rest' = (ms, after)) :
    membersFrom (fuel + 1) (some '\x22' :: s) = ((key, d) :: ms, after) := by
  rw [membersFrom, skipSpace_cons rfl]
  simp only [hkey, skipSpace_cons (c := ':') rfl, h, skipSpace_cons (c := ',') rfl, hrest]

theorem endsNumber_cons (h : digit? 10 c = none ∧ c ≠ '.' ∧ c ≠ 'e' ∧ c ≠ 'E') :
    EndsNumber (some c :: s) := by
  intro c' t hs
  cases hs
  exact h

theorem string?_key (hkey : key.isSome = true) (s : Source) :
    string? (((key.getD "").toList.flatMap Doc.escape).map some ++ some '\x22' :: s) =
      some (key, s) := by
  obtain ⟨k, rfl⟩ := Option.isSome_iff_exists.mp hkey
  rw [string?_quoted, Option.getD_some, String.ofList_toList]

theorem valueFrom_null : valueFrom (fuel + 1) (Doc.null.chars.map some ++ s) = (.null, s) := by
  rw [valueFrom]
  rfl

theorem valueFrom_bool (b : Bool) :
    valueFrom (fuel + 1) ((Doc.bool b).chars.map some ++ s) = (.bool b, s) := by
  rw [valueFrom]
  cases b with
  | _ => rfl

theorem quoted_append (text : List Char) (s : Source) : (Doc.quoted text).map some ++ s =
    some '\x22' :: ((text.flatMap Doc.escape).map some ++ some '\x22' :: s) := by
  simp [Doc.quoted]

theorem exists_fuel (h : d.Writable) (hfuel : 2 * d.chars.length ≤ fuel) : ∃ f, fuel = f + 1 := by
  obtain ⟨c, t, hchars, -⟩ := Doc.chars_start h
  rw [hchars, List.length_cons] at hfuel
  exact ⟨fuel - 1, by omega⟩

theorem itemChars_start (h : Doc.WritableItems (d :: items)) :
    ∃ c t, Doc.itemChars (d :: items) = c :: t ∧ IsStart c := by
  obtain ⟨c, t, hchars, hc⟩ := Doc.chars_start h.1
  cases items with
  | nil => exact ⟨c, t, hchars, hc⟩
  | cons e items => exact ⟨c, _, by rw [Doc.itemChars, hchars, List.cons_append], hc⟩

theorem memberChars_start (m : Option String × Doc) (ms : List (Option String × Doc)) :
    ∃ t, Doc.memberChars (m :: ms) = '\x22' :: t := by
  cases ms with
  | nil => exact ⟨_, rfl⟩
  | cons m' ms => exact ⟨_, rfl⟩

theorem array_append (items : List Doc) (s : Source) : (Doc.array items).chars.map some ++ s =
    some '[' :: ((Doc.itemChars items).map some ++ some ']' :: s) := by
  simp [Doc.chars]

theorem object_append (ms : List (Option String × Doc)) (s : Source) :
    (Doc.object ms).chars.map some ++ s =
      some '\x7b' :: ((Doc.memberChars ms).map some ++ some '\x7d' :: s) := by
  simp [Doc.chars]

mutual

/-- The written document is read again, given so many steps as it has characters, twice. -/
theorem valueFrom_chars {n : Nat} {s : Source} : (d : Doc) → d.Writable →
    EndsNumber s → 2 * d.chars.length ≤ n →
    valueFrom n (d.chars.map some ++ s) = (d, s)
  | .null, h, _, hfuel => by
    obtain ⟨f, rfl⟩ := exists_fuel h hfuel
    exact valueFrom_null
  | .bool b, h, _, hfuel => by
    obtain ⟨f, rfl⟩ := exists_fuel h hfuel
    exact valueFrom_bool b
  | .number l, h, hrest, hfuel => by
    obtain ⟨f, rfl⟩ := exists_fuel h hfuel
    obtain ⟨c, t, hrender, hstart⟩ := Literal.render_start h
    have hread := literal?_render h hrest
    rw [Doc.chars]
    rw [hrender] at hread ⊢
    exact valueFrom_number hstart hread
  | .string content, h, _, hfuel => by
    obtain ⟨f, rfl⟩ := exists_fuel h hfuel
    rw [Doc.chars, quoted_append]
    exact valueFrom_string (string?_key h s)
  | .array [], h, _, hfuel => by
    obtain ⟨f, rfl⟩ := exists_fuel h hfuel
    rw [valueFrom]
    rfl
  | .array (d :: items), h, _, hfuel => by
    obtain ⟨f, rfl⟩ := exists_fuel h hfuel
    have hlength : 2 * (Doc.itemChars (d :: items)).length + 1 ≤ f := by
      simp only [Doc.chars, List.length_cons, List.length_append] at hfuel
      omega
    have hitems := itemsFrom_chars (d :: items) (s := s) (List.cons_ne_nil _ _) h hlength
    obtain ⟨c, t, hstart, hc⟩ := itemChars_start h
    rw [array_append]
    rw [hstart] at hitems ⊢
    exact valueFrom_array hc hitems
  | .object [], h, _, hfuel => by
    obtain ⟨f, rfl⟩ := exists_fuel h hfuel
    rw [valueFrom]
    rfl
  | .object (m :: ms), h, _, hfuel => by
    obtain ⟨f, rfl⟩ := exists_fuel h hfuel
    have hlength : 2 * (Doc.memberChars (m :: ms)).length + 1 ≤ f := by
      simp only [Doc.chars, List.length_cons, List.length_append] at hfuel
      omega
    have hmembers := membersFrom_chars (m :: ms) (s := s) (List.cons_ne_nil _ _) h hlength
    obtain ⟨t, hstart⟩ := memberChars_start m ms
    rw [object_append]
    rw [hstart] at hmembers ⊢
    exact valueFrom_object hmembers
  | .broken, h, _, _ => h.elim

theorem itemsFrom_chars {n : Nat} {s : Source} : (items : List Doc) → items ≠ [] →
    Doc.WritableItems items → 2 * (Doc.itemChars items).length + 1 ≤ n →
    itemsFrom n ((Doc.itemChars items).map some ++ some ']' :: s) = (items, s)
  | [], h, _, _ => absurd rfl h
  | [d], _, h, hfuel => by
    obtain ⟨f, rfl⟩ : ∃ f, n = f + 1 := ⟨n - 1, by omega⟩
    exact itemsFrom_last
      (valueFrom_chars d h.1 (endsNumber_cons (by decide)) (Nat.le_of_succ_le_succ hfuel))
  | d :: e :: items, _, h, hfuel => by
    obtain ⟨f, rfl⟩ : ∃ f, n = f + 1 := ⟨n - 1, by omega⟩
    rw [Doc.itemChars, List.length_append, List.length_cons] at hfuel
    have hvalue := valueFrom_chars (n := f) d h.1 (endsNumber_cons (c := ',')
      (s := (Doc.itemChars (e :: items)).map some ++ some ']' :: s) (by decide)) (by omega)
    have hitems := itemsFrom_chars (n := f) (s := s) (e :: items) (List.cons_ne_nil _ _)
      h.2 (by omega)
    rw [Doc.itemChars, List.map_append, List.append_assoc]
    exact itemsFrom_more hvalue hitems

theorem membersFrom_chars {n : Nat} {s : Source} : (ms : List (Option String × Doc)) →
    ms ≠ [] → Doc.WritableMembers ms → 2 * (Doc.memberChars ms).length + 1 ≤ n →
    membersFrom n ((Doc.memberChars ms).map some ++ some '\x7d' :: s) = (ms, s)
  | [], h, _, _ => absurd rfl h
  | [(key, d)], _, h, hfuel => by
    obtain ⟨f, rfl⟩ : ∃ f, n = f + 1 := ⟨n - 1, by omega⟩
    rw [Doc.memberChars, List.length_append, List.length_cons] at hfuel
    have hvalue := valueFrom_chars (n := f) d h.2.1 (endsNumber_cons (c := '\x7d')
      (s := s) (by decide)) (by omega)
    rw [Doc.memberChars, List.map_append, List.append_assoc, quoted_append]
    exact membersFrom_last (string?_key h.1 _) hvalue
  | (key, d) :: m :: ms, _, h, hfuel => by
    obtain ⟨f, rfl⟩ : ∃ f, n = f + 1 := ⟨n - 1, by omega⟩
    rw [Doc.memberChars, List.length_append, List.length_cons, List.length_append,
      List.length_cons] at hfuel
    have hvalue := valueFrom_chars (n := f) d h.2.1 (endsNumber_cons (c := ',')
      (s := (Doc.memberChars (m :: ms)).map some ++ some '\x7d' :: s) (by decide)) (by omega)
    have hmembers := membersFrom_chars (n := f) (s := s) (m :: ms)
      (List.cons_ne_nil _ _) h.2.2 (by omega)
    rw [Doc.memberChars, List.map_append, List.append_assoc, quoted_append, List.map_cons,
      List.map_append, List.cons_append, List.append_assoc]
    exact membersFrom_more (string?_key h.1 _) hvalue hmembers

end

mutual

theorem Doc.intact_of_writable : (d : Doc) → d.Writable → d.intact = true
  | .null, _ => rfl
  | .bool _, _ => rfl
  | .number _, _ => rfl
  | .string _, _ => rfl
  | .array items, h => Doc.intactItems_of_writable items h
  | .object ms, h => Doc.intactMembers_of_writable ms h
  | .broken, h => h.elim

theorem Doc.intactItems_of_writable :
    (items : List Doc) → Doc.WritableItems items → Doc.intactItems items = true
  | [], _ => rfl
  | d :: items, h => by
    rw [Doc.intactItems, Doc.intact_of_writable d h.1, Doc.intactItems_of_writable items h.2]
    rfl

theorem Doc.intactMembers_of_writable : (ms : List (Option String × Doc)) →
    Doc.WritableMembers ms → Doc.intactMembers ms = true
  | [], _ => rfl
  | (key, d) :: ms, h => by
    rw [Doc.intactMembers, Doc.intact_of_writable d h.2.1,
      Doc.intactMembers_of_writable ms h.2.2]
    rfl

end

theorem Doc.WritableMembers.intact (h : Doc.WritableMembers ms) :
    ∀ m ∈ ms, m.1.isSome = true ∧ m.2.intact = true := by
  induction ms with
  | nil => exact nofun
  | cons m ms ih =>
    exact List.forall_mem_cons.mpr ⟨⟨h.1, Doc.intact_of_writable m.2 h.2.1⟩, ih h.2.2⟩

/-- A written text holds the document and nothing else. -/
theorem readValue_render (h : d.Writable) : readValue (.ofString d.render) = (d, []) := by
  have hvalue := valueFrom_chars (n := 2 * d.chars.length + 2) d h endsNumber_nil (by omega)
  rw [List.append_nil] at hvalue
  rw [readValue, Source.ofString, Doc.render, String.toList_ofList, List.length_map, hvalue]

theorem Literal.wellFormed_ofNat (n : Nat) : (Literal.ofNat n).WellFormed where
  whole := Text.Numeral.decimalDigits_ne_nil n
  leading hzero := by
    rcases Nat.eq_zero_or_pos n with rfl | hn
    · rfl
    · obtain ⟨d, ds, hdigits, hd⟩ := Text.Numeral.head_decimalDigits hn
      rw [ofNat, hdigits] at hzero
      obtain rfl := Option.some.inj hzero
      exact absurd hd (by decide)
  exponent := nofun

end GuestControl.Json
