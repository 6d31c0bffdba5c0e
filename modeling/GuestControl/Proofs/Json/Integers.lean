import GuestControl.Proofs.Binary64.Rounding
import GuestControl.Proofs.Record.Numbers

/-!
# Integer literals as values

An integer literal that 64 bits can hold becomes the word that holds it. A negative zero
becomes a zero of doubles, and what is beyond 64 bits a double that is rounded, perhaps
more than once. Rounding leaves it so large, or negative, that no conversion to an
unsigned word accepts it: what is accepted is the number that was written.
-/

namespace GuestControl.Json

open Binary64 (IsShort le_roundUnits)

-- ---------------------------------------------------------------------------
-- Integer literals
-- ---------------------------------------------------------------------------

namespace Literal

def IsInteger (l : Literal) : Prop := l.fraction = [] ∧ l.exponent = none

def int (l : Literal) : Int :=
  if l.negative then -(Text.Numeral.value l.whole : Int) else Text.Numeral.value l.whole

variable {l : Literal}

theorem int_of_negative (h : l.negative = true) : l.int = -(Text.Numeral.value l.whole : Int) :=
  if_pos h

theorem int_of_nonnegative (h : l.negative = false) : l.int = Text.Numeral.value l.whole := by
  rw [int, h]
  rfl

end Literal

namespace Number

variable {l : Literal} {kept k : Nat} {x : Binary64}

/-- Digits are left over exactly if 64 bits cannot hold the number; then the number that
was kept could not have taken one digit more. -/
theorem absorb_cases (hkept : kept < 2 ^ 64) (ds : List Digit) :
    (kept * 10 ^ ds.length + Text.Numeral.value ds < 2 ^ 64 ∧
      absorb kept ds = (kept * 10 ^ ds.length + Text.Numeral.value ds, [])) ∨
    (2 ^ 64 ≤ kept * 10 ^ ds.length + Text.Numeral.value ds ∧
      ∃ m d rest, absorb kept ds = (m, d :: rest) ∧ 2 ^ 64 ≤ m * 10 + d.val) := by
  induction ds generalizing kept with
  | nil => exact .inl (by simpa [absorb, Text.Numeral.value] using hkept)
  | cons d ds ih =>
    have hvalue : kept * 10 ^ (d :: ds).length + Text.Numeral.value (d :: ds) =
        (kept * 10 + d.val) * 10 ^ ds.length + Text.Numeral.value ds := by
      rw [Text.Numeral.value_cons, List.length_cons, Nat.pow_succ, Nat.pow_eq]
      ring
    rw [absorb, hvalue]
    split
    · exact ih ‹_›
    · rename_i hover
      have hlarge : 2 ^ 64 ≤ kept * 10 + d.val := by omega
      have hpos : 0 < 10 ^ ds.length := Nat.pow_pos (by decide)
      refine .inr ⟨?_, kept, d, ds, rfl, hlarge⟩
      calc 2 ^ 64 ≤ kept * 10 + d.val := hlarge
        _ ≤ (kept * 10 + d.val) * 10 ^ ds.length := Nat.le_mul_of_pos_right _ hpos
        _ ≤ _ := Nat.le_add_right _ _

theorem scaleUp?_eq_some {y : Binary64} (h : scaleUp? x k = some y) :
    (x.times (Binary64.powerOfTen k) = y ∧ ∀ s, y ≠ .infinite s) ∨
      ∃ s, x = .finite s 0 ∧ y = x := by
  unfold scaleUp? at h
  split at h
  · left
    split at h
    · cases h
    · rename_i hne
      rw [Option.some.injEq] at h
      subst h
      exact ⟨rfl, hne⟩
  · split at h
    · rw [Option.some.injEq] at h
      exact .inr ⟨_, rfl, h.symm⟩
    · cases h

/-- The product of a number and a power of ten may be rounded, but it does not fall below
a product of two short numbers that are not larger. -/
theorem scaleUp?_ofNat (hkept : 0 < kept) (h : scaleUp? (.ofNat kept) k = some x) :
    ∃ units, x = .finite false units ∧ ∀ a b, IsShort a → IsShort b → IsShort (a * b) →
      a ≤ kept → b ≤ 10 ^ k → a * b * Binary64.one ≤ units := by
  have hofNat (a : Nat) (ha : IsShort a) (hle : a ≤ kept) :
      a * Binary64.one ≤ Binary64.roundUnits (kept * Binary64.one) 1 := by
    refine le_roundUnits ha.mul_one Nat.one_pos ?_
    rw [Nat.mul_one]
    exact Nat.mul_le_mul_right _ hle
  have hpower (b : Nat) (hb : IsShort b) (hle : b ≤ 10 ^ k) :
      b * Binary64.one ≤ Binary64.powerOfTen k := by
    refine le_roundUnits hb.mul_one Nat.one_pos ?_
    rw [Nat.mul_one]
    exact Nat.mul_le_mul_right _ hle
  have hround := Binary64.round_eq_or false (kept * Binary64.one) 1
  rw [← Binary64.ofNat] at hround
  generalize Binary64.roundUnits (kept * Binary64.one) 1 = u at hofNat hround
  obtain ⟨rfl, hfinite⟩ | ⟨s, hzero, -⟩ := scaleUp?_eq_some h
  · obtain hround | hround := hround
    · rw [hround, Binary64.finite_times] at hfinite ⊢
      obtain hproduct | hproduct :=
        Binary64.round_eq_or false (u * Binary64.powerOfTen k) Binary64.one
      · refine ⟨_, hproduct, fun a b ha hb hab hle hle' => ?_⟩
        refine le_roundUnits hab.mul_one Binary64.one_pos ?_
        calc a * b * Binary64.one * Binary64.one = a * Binary64.one * (b * Binary64.one) := by ring
          _ ≤ u * Binary64.powerOfTen k := Nat.mul_le_mul (hofNat a ha hle) (hpower b hb hle')
      · exact absurd hproduct (hfinite _)
    · rw [hround] at hfinite
      exact absurd rfl (hfinite false)
  · -- a number that is not zero is not rounded to zero
    obtain hround | hround := hround
    · obtain ⟨-, rfl⟩ := Binary64.finite.inj (hround.symm.trans hzero)
      have hu := hofNat 1 (Binary64.isShort_of_lt (by decide)) hkept
      have hone := Binary64.one_pos
      omega
    · cases hround.symm.trans hzero

theorem real?_of_isInteger (h : l.IsInteger) : real? l =
    (scaleUp? (.ofNat (absorb 0 l.whole).1) (absorb 0 l.whole).2.length).map
      fun x => if l.negative then x.negate else x := by
  obtain ⟨hfraction, hexponent⟩ := h
  have hshift : ((absorb 0 l.whole).2.length : Int) -
      ((([] : List Digit).length : Int) - (([] : List Digit).length : Int)) + 0 =
      .ofNat (absorb 0 l.whole).2.length := by simp
  simp only [real?, hfraction, absorb, statedExponent, hexponent, hshift]
  rfl

theorem real?_zero (h : l.IsInteger) (hzero : Text.Numeral.value l.whole = 0) :
    real? l = some (.finite l.negative 0) := by
  have habsorb : absorb 0 l.whole = (0, []) := by
    obtain ⟨-, hall⟩ | ⟨hlarge, -⟩ := absorb_cases (by decide : 0 < 2 ^ 64) l.whole
    · simpa [hzero] using hall
    · simp [hzero] at hlarge
  have hscale : scaleUp? .zero 0 = some .zero := by
    simp only [scaleUp?, Binary64.zero_times]
    rfl
  rw [real?_of_isInteger h, habsorb, Binary64.ofNat_zero, List.length_nil, hscale]
  cases l.negative with
  | _ => rfl

theorem real?_pos (h : l.IsInteger) (hpos : 0 < Text.Numeral.value l.whole)
    (hx : real? l = some x) : ∃ units, x = .finite l.negative units ∧ Binary64.one ≤ units ∧
      (2 ^ 64 ≤ Text.Numeral.value l.whole → 18000000000000000000 * Binary64.one ≤ units) := by
  rw [real?_of_isInteger h, Option.map_eq_some_iff] at hx
  obtain ⟨y, hy, rfl⟩ := hx
  have hcases := absorb_cases (by decide : 0 < 2 ^ 64) l.whole
  rw [Nat.zero_mul, Nat.zero_add] at hcases
  have hkept : 0 < (absorb 0 l.whole).1 := by
    obtain ⟨-, hall⟩ | ⟨-, m, d, rest, hrest, hlarge⟩ := hcases
    · rwa [hall]
    · rw [hrest]
      omega
  obtain ⟨units, rfl, hunits⟩ := scaleUp?_ofNat hkept hy
  refine ⟨units, ?_, ?_, fun hbeyond => ?_⟩
  · cases l.negative with
    | _ => rfl
  · have hshort : IsShort 1 := Binary64.isShort_of_lt (by decide)
    simpa using hunits 1 1 hshort hshort hshort hkept (Nat.pow_pos (by decide))
  · obtain ⟨hsmall, -⟩ | ⟨-, m, d, rest, hrest, hlarge⟩ := hcases
    · omega
    · rw [hrest] at hunits
      have hpower : 10 ≤ 10 ^ (d :: rest).length := by
        rw [List.length_cons, Nat.pow_succ]
        exact Nat.le_mul_of_pos_left _ (Nat.pow_pos (by decide))
      -- 18 · 10¹⁷ and 18 · 10¹⁸ are doubles
      have hbound := hunits 1800000000000000000 10 ⟨6866455078125, 18, by decide, by decide⟩
        (Binary64.isShort_of_lt (by decide)) ⟨68664550781250, 18, by decide, by decide⟩
        (by omega) hpower
      rwa [show 1800000000000000000 * 10 = 18000000000000000000 from rfl] at hbound

end Number

-- ---------------------------------------------------------------------------
-- The value of a literal
-- ---------------------------------------------------------------------------

/-- How a value carries the number of an integer literal: exactly if 64 bits can hold it,
else as a double that is large, or negative. -/
inductive Carries (l : Literal) : Value → Prop
  | int {i : Int64} : i.toInt = l.int → ¬ (l.negative = true ∧ l.int = 0) → Carries l (.int i)
  | uint {n : UInt64} : 2 ^ 63 ≤ l.int → (n.toNat : Int) = l.int → Carries l (.uint n)
  | negativeZero : l.negative = true → l.int = 0 → Carries l (.float (.finite true 0))
  | below {units : Nat} : l.int < -2 ^ 63 → Binary64.one ≤ units →
      Carries l (.float (.finite true units))
  | beyond {units : Nat} : 2 ^ 64 ≤ l.int → 18000000000000000000 * Binary64.one ≤ units →
      Carries l (.float (.finite false units))

variable {l : Literal} {n : Number} {v : Value}

theorem carries_of_ofInteger? (h : Number.ofInteger? l = some n) :
    Carries l (.ofJson (.number n)) := by
  unfold Number.ofInteger? at h
  cases hnegative : l.negative with
  | true =>
    have hint := Literal.int_of_negative hnegative
    rw [hnegative, if_pos rfl, ← hint] at h
    split at h
    · cases h
    · rename_i hzero
      obtain ⟨i, hi, rfl⟩ := Option.map_eq_some_iff.mp h
      exact .int (Word.toInt_of_int64? hi) fun hz => hzero (by omega)
  | false =>
    have hint := Literal.int_of_nonnegative hnegative
    rw [hnegative, if_neg Bool.false_ne_true, ← hint] at h
    split at h
    · rename_i i hi
      obtain rfl := Option.some.inj h
      exact .int (Word.toInt_of_int64? hi) fun hz => Bool.false_ne_true (hnegative.symm.trans hz.1)
    · rename_i hnone
      obtain ⟨w, hw, rfl⟩ := Option.map_eq_some_iff.mp h
      refine .uint ?_ (by rw [Word.toNat_of_uint64? hw, hint])
      unfold Word.int64? at hnone
      split at hnone
      · cases hnone
      · omega

theorem ofInteger?_eq_none (h : Number.ofInteger? l = none) :
    (l.negative = true ∧ Text.Numeral.value l.whole = 0) ∨
      (l.negative = true ∧ l.int < -2 ^ 63) ∨ l.negative = false ∧ 2 ^ 64 ≤ l.int := by
  unfold Number.ofInteger? at h
  cases hnegative : l.negative with
  | true =>
    have hint := Literal.int_of_negative hnegative
    rw [hnegative, if_pos rfl, ← hint] at h
    split at h
    · exact .inl ⟨rfl, ‹_›⟩
    · have hword := Option.map_eq_none_iff.mp h
      unfold Word.int64? at hword
      split at hword
      · cases hword
      · exact .inr (.inl ⟨rfl, by omega⟩)
  | false =>
    have hint := Literal.int_of_nonnegative hnegative
    rw [hnegative, if_neg Bool.false_ne_true] at h
    split at h
    · cases h
    · have hword := Option.map_eq_none_iff.mp h
      unfold Word.uint64? at hword
      split at hword
      · cases hword
      · exact .inr (.inr ⟨rfl, by omega⟩)

theorem carries_of_ofLiteral? (h : l.IsInteger) (hn : Number.ofLiteral? l = some n) :
    Carries l (.ofJson (.number n)) := by
  rw [Number.ofLiteral?, if_pos ⟨by simp [h.1], by simp [h.2]⟩] at hn
  split at hn
  · rename_i hinteger
    exact carries_of_ofInteger? (hinteger.trans hn)
  · rename_i hnone
    obtain ⟨x, hx, rfl⟩ := Option.map_eq_some_iff.mp hn
    obtain ⟨hnegative, hzero⟩ | ⟨hnegative, hbelow⟩ | ⟨hnegative, hbeyond⟩ :=
      ofInteger?_eq_none hnone
    · have hint := Literal.int_of_negative hnegative
      obtain rfl := Option.some.inj (hx.symm.trans (Number.real?_zero h hzero))
      exact hnegative ▸ .negativeZero hnegative (by omega)
    · have hint := Literal.int_of_negative hnegative
      obtain ⟨units, rfl, hunits, -⟩ := Number.real?_pos h (by omega) hx
      exact hnegative ▸ .below hbelow hunits
    · have hint := Literal.int_of_nonnegative hnegative
      obtain ⟨units, rfl, -, hunits⟩ := Number.real?_pos h (by omega) hx
      exact hnegative ▸ .beyond hbeyond (hunits (by omega))

-- ---------------------------------------------------------------------------
-- Conversion to words
-- ---------------------------------------------------------------------------

theorem Carries.toUInt64_eq_ok (h : Carries l v) {w : UInt64} :
    v.toUInt64 = .ok w ↔ (w.toNat : Int) = l.int := by
  rw [Value.toUInt64_eq_ok]
  have hone : (0 : ℚ) < Binary64.one := Nat.cast_pos.mpr Binary64.one_pos
  cases h with
  | int hi hzero =>
    simp only [Value.denotes_int, Value.natCast_eq_intCast, Value.HasMinus, hi, not_false_iff,
      reduceCtorEq, false_imp_iff, implies_true, and_true]
    exact eq_comm
  | uint hlarge hn =>
    simp only [Value.denotes_uint, Nat.cast_inj, Value.HasMinus, ← hn,
      not_false_iff, reduceCtorEq, false_imp_iff, implies_true, and_true]
  | negativeZero hnegative hzero =>
    have hvalue : (Binary64.finite true 0).toRat? = some 0 := by
      rw [Binary64.toRat?, Nat.cast_zero, zero_div, neg_zero, ite_self]
    rw [Value.denotes_float, hvalue, hzero]
    constructor
    · rintro ⟨hw, -⟩
      exact_mod_cast (Option.some.inj hw).symm
    · intro hw
      have hw : w.toNat = 0 := by exact_mod_cast hw
      rw [hw]
      exact ⟨rfl, not_false, fun _ _ => by decide⟩
  | @below units hbelow hunits =>
    refine ⟨fun hw => ?_, fun hw => by omega⟩
    have hvalue := Option.some.inj (Value.denotes_float.mp hw.1)
    have hlarge : (1 : ℚ) ≤ units / Binary64.one := by
      rw [le_div_iff₀ hone, one_mul]
      exact_mod_cast hunits
    have hnonneg : (0 : ℚ) ≤ w.toNat := Nat.cast_nonneg _
    rw [if_pos rfl] at hvalue
    linarith
  | @beyond units hbeyond hunits =>
    have hrange := w.toNat_lt
    refine ⟨fun hw => ?_, fun hw => by omega⟩
    have hvalue := Option.some.inj (Value.denotes_float.mp hw.1)
    have hlarge : (18000000000000000000 : ℚ) ≤ units / Binary64.one := by
      rw [le_div_iff₀ hone]
      exact_mod_cast hunits
    have hbound : (w.toNat : ℚ) < 18000000000000000000 := by exact_mod_cast hw.2.2 _ rfl
    rw [if_neg Bool.false_ne_true] at hvalue
    linarith

theorem Carries.toUInt32_eq_ok (h : Carries l v) {w : UInt32} :
    v.toUInt32 = .ok w ↔ (w.toNat : Int) = l.int := by
  rw [Value.toUInt32_eq_ok_iff]
  constructor
  · rintro ⟨wide, hwide, hvalue⟩
    rw [← hvalue]
    exact h.toUInt64_eq_ok.mp hwide
  · intro hw
    refine ⟨w.toUInt64, h.toUInt64_eq_ok.mpr ?_, w.toNat_toUInt64⟩
    rwa [w.toNat_toUInt64]

end GuestControl.Json
