import GuestControl.Proofs.Text.Identifiers
import Mathlib.Data.Nat.Digits.Defs

/-!
# Numerals

What a numeral is can be said without reading it: digits, of which the first is the most
significant, and perhaps a sign. Exactly the numerals are read, as the numbers that they
denote, and no numeral has a blank in it, so that blanks around it can be trimmed.
-/

namespace GuestControl.Text

variable {s t : List Char} {c : Char}

-- ---------------------------------------------------------------------------
-- Blanks around a text
-- ---------------------------------------------------------------------------

def Padded (t s : List Char) : Prop :=
  ∃ before after, s = before ++ t ++ after ∧ (∀ c ∈ before, isBlank c = true) ∧
    ∀ c ∈ after, isBlank c = true

theorem padded_self (s : List Char) : Padded s s :=
  ⟨[], [], (List.append_nil s).symm, nofun, nofun⟩

theorem padded_of_all (before after : List Char) (hs : s = before ++ t ++ after)
    (h : (before ++ after).all isBlank = true) : Padded t s := by
  rw [List.all_append, Bool.and_eq_true, List.all_eq_true, List.all_eq_true] at h
  exact ⟨before, after, hs, h⟩

theorem trimStart_append (h : ∀ c ∈ s, isBlank c = true) : trimStart (s ++ t) = trimStart t :=
  List.dropWhile_append_of_pos h

theorem trimChars_of_padded (h : Padded t s) (ht : ∀ c ∈ t, isBlank c = false) :
    trimChars s = t := by
  obtain ⟨before, after, rfl, hbefore, hafter⟩ := h
  have hend : ∀ c ∈ after.reverse, isBlank c = true := fun c hc => hafter c (List.mem_reverse.mp hc)
  have hreverse : ∀ c ∈ t.reverse, isBlank c = false := fun c hc => ht c (List.mem_reverse.mp hc)
  rw [trimChars, List.append_assoc, trimStart_append hbefore]
  cases t with
  | nil =>
    have hblank : trimStart after = [] := by
      simpa [trimStart] using trimStart_append (t := []) hafter
    rw [List.nil_append, hblank]
    rfl
  | cons c t =>
    rw [List.cons_append, trimStart_of_not_blank (ht c List.mem_cons_self), ← List.cons_append,
      List.reverse_append, trimStart_append hend, trimStart_of_not_blanks hreverse,
      List.reverse_reverse]

namespace Numeral

-- ---------------------------------------------------------------------------
-- What a numeral is
-- ---------------------------------------------------------------------------

structure IsDecimal (s : List Char) (n : Nat) : Prop where
  ne_nil : s ≠ []
  digits : ∀ c ∈ s, c.isDigit = true
  value : n = Nat.ofDigits 10 (s.reverse.map fun c => c.toNat - '0'.toNat)

inductive Spells : List Char → Int → Prop
  | plain {s : List Char} {n : Nat} : IsDecimal s n → Spells s n
  | plus {s : List Char} {n : Nat} : IsDecimal s n → Spells ('+' :: s) n
  | minus {s : List Char} {n : Nat} : IsDecimal s n → Spells ('-' :: s) (-n)

variable {n : Nat} {i : Int} {ds : List (Fin 10)}

theorem isDigit_iff : c.isDigit = true ↔ 48 ≤ c.toNat ∧ c.toNat ≤ 57 := by
  simp only [Char.isDigit, Bool.and_eq_true, decide_eq_true_eq, ge_iff_le, UInt32.le_iff_toNat_le]
  exact Iff.rfl

theorem isWordy_of_isDigit (h : c.isDigit = true) : IsWordy c := by
  have hrange := isDigit_iff.mp h
  unfold IsWordy
  omega

theorem digit?_of_isDigit (h : c.isDigit = true) :
    ∃ d : Fin 10, digit? 10 c = some d ∧ d.val = c.toNat - 48 := by
  have hrange := isDigit_iff.mp h
  have hlt : c.toNat - 48 < 10 := by omega
  refine ⟨⟨c.toNat - 48, hlt⟩, ?_, rfl⟩
  simp only [digit?, hrange, and_self, if_true, hlt, dite_true]

theorem isDigit_of_digit? {d : Fin 10} (h : digit? 10 c = some d) : c.isDigit = true := by
  rw [isDigit_iff]
  unfold digit? at h
  grind

theorem digits?_of_isDigit (h : ∀ c ∈ s, c.isDigit = true) :
    ∃ ds, digits? 10 s = some ds ∧ ds.map Fin.val = s.map fun c => c.toNat - '0'.toNat := by
  induction s with
  | nil => exact ⟨[], rfl, rfl⟩
  | cons c s ih =>
    obtain ⟨hc, hs⟩ := List.forall_mem_cons.mp h
    obtain ⟨d, hd, hvalue⟩ := digit?_of_isDigit hc
    obtain ⟨ds, hds, hvalues⟩ := ih hs
    refine ⟨d :: ds, ?_, ?_⟩
    · rw [digits?, List.mapM_cons, hd, ← digits?, hds]
      rfl
    · rw [List.map_cons, List.map_cons, hvalue, hvalues]
      rfl

theorem value_eq_ofDigits {b : Nat} (ds : List (Fin b)) :
    value ds = Nat.ofDigits b (ds.reverse.map Fin.val) := by
  induction ds with
  | nil => rfl
  | cons d ds ih =>
    rw [value_cons, ih, List.reverse_cons, List.map_append, Nat.ofDigits_append, List.map_singleton,
      Nat.ofDigits_singleton, List.length_map, List.length_reverse, Nat.pow_eq, Nat.mul_comm,
      Nat.add_comm]

-- ---------------------------------------------------------------------------
-- What is read
-- ---------------------------------------------------------------------------

theorem plain?_eq_some : plain? s = some n ↔ IsDecimal s n := by
  have hplain : plain? s = some n ↔ s ≠ [] ∧ ∃ ds, digits? 10 s = some ds ∧ value ds = n := by
    cases s with
    | _ => simp [plain?]
  rw [hplain]
  constructor
  · rintro ⟨hne, ds, hds, rfl⟩
    have hdigits : ∀ c ∈ s, c.isDigit = true := by
      intro c hc
      obtain ⟨_, hd⟩ := digit?_of_mem hds hc
      exact isDigit_of_digit? hd
    obtain ⟨ds', hds', hvalues⟩ := digits?_of_isDigit hdigits
    obtain rfl := Option.some.inj (hds.symm.trans hds')
    refine ⟨hne, hdigits, ?_⟩
    rw [value_eq_ofDigits, List.map_reverse, hvalues, List.map_reverse]
  · rintro ⟨hne, hdigits, rfl⟩
    obtain ⟨ds, hds, hvalues⟩ := digits?_of_isDigit hdigits
    refine ⟨hne, ds, hds, ?_⟩
    rw [value_eq_ofDigits, List.map_reverse, hvalues, List.map_reverse]

theorem IsDecimal.head (h : IsDecimal s n) : ∃ c t, s = c :: t ∧ c.isDigit = true := by
  cases s with
  | nil => exact absurd rfl h.ne_nil
  | cons c t => exact ⟨c, t, rfl, h.digits c List.mem_cons_self⟩

def HasMinus (s : List Char) : Prop := s.head? = some '-'

instance (s : List Char) : Decidable (HasMinus s) := inferInstanceAs (Decidable (_ = _))

theorem integer?_minus (s : List Char) :
    integer? ('-' :: s) = (plain? s).map fun n : Nat => -(n : Int) := by
  rw [integer?]
  cases plain? s with
  | _ => rfl

theorem integer?_eq_natural? (h : ¬ HasMinus s) : integer? s = (natural? s).map Int.ofNat := by
  unfold integer? natural?
  split
  · exact absurd rfl h
  · rename_i digits
    simp only
    cases plain? digits with
    | _ => rfl
  · simp only
    cases plain? s with
    | _ => rfl

theorem natural?_of_digit {t : List Char} (h : c.isDigit = true) :
    natural? (c :: t) = plain? (c :: t) := by
  unfold natural?
  split
  · rename_i heq
    obtain ⟨rfl, -⟩ := List.cons.inj heq
    exact absurd h (by decide)
  · rfl

theorem natural?_eq_some : natural? s = some n ↔ Spells s n ∧ ¬ HasMinus s := by
  constructor
  · intro h
    unfold natural? at h
    split at h
    · exact ⟨.plus (plain?_eq_some.mp h), nofun⟩
    · have hdecimal := plain?_eq_some.mp h
      obtain ⟨c, t, rfl, hc⟩ := hdecimal.head
      refine ⟨.plain hdecimal, fun hminus => ?_⟩
      obtain rfl := Option.some.inj hminus
      exact absurd hc (by decide)
  · rintro ⟨hspells, hminus⟩
    generalize hi : (n : Int) = i at hspells
    cases hspells with
    | plain hdecimal =>
      obtain rfl := Int.ofNat.inj hi
      obtain ⟨c, t, rfl, hc⟩ := hdecimal.head
      rw [natural?_of_digit hc, plain?_eq_some.mpr hdecimal]
    | plus hdecimal =>
      obtain rfl := Int.ofNat.inj hi
      exact plain?_eq_some.mpr hdecimal
    | minus => exact absurd rfl hminus

theorem integer?_eq_some : integer? s = some i ↔ Spells s i := by
  by_cases hminus : HasMinus s
  · obtain ⟨t, rfl⟩ : ∃ t, s = '-' :: t := by
      cases s with
      | nil => cases hminus
      | cons c t => exact ⟨t, by rw [Option.some.inj hminus]⟩
    rw [integer?_minus, Option.map_eq_some_iff]
    constructor
    · rintro ⟨n, hn, rfl⟩
      exact .minus (plain?_eq_some.mp hn)
    · intro h
      cases h with
      | plain hdecimal => exact absurd (hdecimal.digits '-' List.mem_cons_self) (by decide)
      | minus hdecimal => exact ⟨_, plain?_eq_some.mpr hdecimal, rfl⟩
  · rw [integer?_eq_natural? hminus, Option.map_eq_some_iff]
    constructor
    · rintro ⟨n, hn, rfl⟩
      exact (natural?_eq_some.mp hn).1
    · intro h
      have hnonneg : ∃ n : Nat, i = n := by
        cases h with
        | plain | plus => exact ⟨_, rfl⟩
        | minus => exact absurd rfl hminus
      obtain ⟨n, rfl⟩ := hnonneg
      exact ⟨n, natural?_eq_some.mpr ⟨h, hminus⟩, rfl⟩

theorem Spells.unique {j : Int} (h : Spells s i) (h' : Spells s j) : i = j := by
  rw [← integer?_eq_some] at h h'
  exact Option.some.inj (h.symm.trans h')

theorem IsDecimal.not_blank (h : IsDecimal s n) : ∀ c ∈ s, isBlank c = false :=
  fun c hc => (isWordy_of_isDigit (h.digits c hc)).not_blank

theorem Spells.not_blank (h : Spells s i) : ∀ c ∈ s, isBlank c = false := by
  cases h with
  | plain h => exact h.not_blank
  | plus h | minus h => exact List.forall_mem_cons.mpr ⟨by decide, h.not_blank⟩

-- ---------------------------------------------------------------------------
-- What is written
-- ---------------------------------------------------------------------------

theorem isDecimal_decimalChars (n : Nat) : IsDecimal (decimalChars n) n :=
  plain?_eq_some.mp (plain?_decimalChars n)

theorem spells_signed (i : Int) : Spells (signed i).toList i :=
  integer?_eq_some.mp (integer?_signed i)

theorem digitChar_eq (d : Fin 10) : digitChar d.val = Nat.digitChar d.val := by
  revert d; decide

theorem map_digitsBefore {fuel : Nat} (hfuel : n < fuel) (acc : List (Fin 10)) :
    (digitsBefore (by decide) fuel n acc).map (digitChar ·.val) =
      Nat.toDigits 10 n ++ acc.map (digitChar ·.val) := by
  induction fuel generalizing n acc with
  | zero => omega
  | succ fuel ih =>
    rw [digitsBefore]
    split
    · rename_i hdiv
      have hless : n < 10 := by omega
      simp [Nat.toDigits_of_lt_base hless, digitChar_eq, lastDigit, Nat.mod_eq_of_lt hless]
    · rename_i hdiv
      rw [ih (by omega), Nat.toDigits_of_base_le (by decide) (by omega : 10 ≤ n)]
      simp [digitChar_eq, lastDigit]

theorem decimal_eq_repr (n : Nat) : decimal n = n.repr := by
  have h := map_digitsBefore (Nat.lt_succ_self n) []
  rw [List.map_nil, List.append_nil] at h
  exact congrArg String.ofList h

theorem signed_eq_toString (i : Int) : signed i = toString i := by
  cases i with
  | ofNat n => exact decimal_eq_repr n
  | negSucc n => exact congrArg ("-" ++ ·) (decimal_eq_repr (n + 1))

theorem length_digitsBefore {b k fuel : Nat} (hb : 0 < b) (acc : List (Fin b))
    (h : n < b ^ (k + 1)) : (digitsBefore hb fuel n acc).length ≤ k + 1 + acc.length := by
  induction fuel generalizing n k acc with
  | zero => simp [digitsBefore]
  | succ fuel ih =>
    rw [digitsBefore]
    split
    · simp only [List.length_cons]
      omega
    · rename_i hdiv
      cases k with
      | zero => exact absurd (Nat.div_eq_of_lt (by simpa using h)) hdiv
      | succ k =>
        have hless : n / b < b ^ (k + 1) := Nat.div_lt_of_lt_mul (by rwa [← Nat.pow_succ'])
        have := ih (lastDigit hb n :: acc) hless
        simp only [List.length_cons] at this
        omega

theorem length_decimalChars {k : Nat} (h : n < 10 ^ (k + 1)) : (decimalChars n).length ≤ k + 1 := by
  simpa [decimalChars, decimalDigits, digits] using length_digitsBefore (by decide) [] h

theorem head_digitsBefore {b fuel : Nat} (hb : 1 < b) {acc : List (Fin b)} (hfuel : n < fuel)
    (hn : 0 < n) :
    ∃ d ds, digitsBefore (Nat.lt_of_succ_lt hb) fuel n acc = d :: ds ∧ 0 < d.val := by
  induction fuel generalizing n acc with
  | zero => omega
  | succ fuel ih =>
    rw [digitsBefore]
    split
    · rename_i hdiv
      have hlast : (lastDigit (Nat.lt_of_succ_lt hb) n).val = n :=
        Nat.mod_eq_of_lt ((Nat.div_eq_zero_iff_lt (by omega)).mp hdiv)
      exact ⟨_, _, rfl, hlast.symm ▸ hn⟩
    · rename_i hdiv
      have hless : n / b < n := Nat.div_lt_self hn hb
      exact ih (by omega) (Nat.pos_of_ne_zero hdiv)

def filled {b : Nat} (hb : 0 < b) (width n : Nat) : List (Fin b) :=
  List.replicate (width - (digits hb n).length) ⟨0, hb⟩ ++ digits hb n

theorem le_length_filled {b : Nat} (hb : 0 < b) (width n : Nat) :
    width ≤ (filled hb width n).length := by
  simp only [filled, List.length_append, List.length_replicate]
  omega

theorem length_filled {b width : Nat} (hb : 0 < b) (hwidth : 0 < width) (hn : n < b ^ width) :
    (filled hb width n).length = width := by
  obtain ⟨k, rfl⟩ := Nat.exists_eq_add_one.mpr hwidth
  have hdigits : (digits hb n).length ≤ k + 1 := by
    simpa [digits] using length_digitsBefore hb [] hn
  simp only [filled, List.length_append, List.length_replicate]
  omega

theorem ofDigits_filled {b : Nat} (hb : 1 < b) (width n : Nat) :
    Nat.ofDigits b ((filled (Nat.lt_of_succ_lt hb) width n).reverse.map Fin.val) = n := by
  rw [filled, List.reverse_append, List.map_append, List.reverse_replicate, List.map_replicate]
  exact (Nat.ofDigits_append_replicate_zero _).trans
    ((value_eq_ofDigits _).symm.trans (value_digits hb n))

theorem head_decimalDigits (hn : 0 < n) : ∃ d ds, decimalDigits n = d :: ds ∧ 0 < d.val :=
  head_digitsBefore (by decide) (Nat.lt_succ_self n) hn

theorem decimalDigits_ne_nil (n : Nat) : decimalDigits n ≠ [] :=
  fun h => decimalChars_ne_nil n (by rw [decimalChars, h, List.map_nil])

end Numeral

end GuestControl.Text
