import GuestControl.Binary64
import Mathlib.Algebra.GroupWithZero.Nat

/-!
# Rounding keeps to one side

A magnitude of few bits is a double itself, so that no larger quotient is rounded to
anything below it. With this, rounded results are bounded without being computed.
-/

namespace GuestControl.Binary64

variable {a num den : Nat}

/-- The number has no more than 53 significant bits. -/
def IsShort (a : Nat) : Prop := ∃ m j, m < 2 ^ 53 ∧ a = m * 2 ^ j

theorem isShort_of_lt (h : a < 2 ^ 53) : IsShort a := ⟨a, 0, h, (Nat.mul_one a).symm⟩

theorem IsShort.shift (h : IsShort a) (k : Nat) : IsShort (a * 2 ^ k) := by
  obtain ⟨m, j, hm, rfl⟩ := h
  exact ⟨m, j + k, hm, by rw [Nat.pow_add, Nat.mul_assoc]⟩

theorem IsShort.mul_one (h : IsShort a) : IsShort (a * one) := by
  unfold one
  generalize 1074 = k
  exact h.shift k

theorem div_le_nearest (num den : Nat) : num / den ≤ nearest num den := by
  unfold nearest
  dsimp only
  split
  · exact Nat.le_refl _
  · split
    · exact Nat.le_add_right _ _
    · exact Nat.le_add_right _ _

theorem le_roundUnits_of_le_truncated
    (h : a ≤ num / den / 2 ^ spare (num / den) * 2 ^ spare (num / den)) :
    a ≤ roundUnits num den := by
  refine Nat.le_trans h (Nat.mul_le_mul_right _ ?_)
  rw [Nat.div_div_eq_div_mul]
  exact div_le_nearest _ _

theorem le_roundUnits (ha : IsShort a) (hden : 0 < den) (h : a * den ≤ num) :
    a ≤ roundUnits num den := by
  have hquotient : a ≤ num / den := (Nat.le_div_iff_mul_le hden).mpr h
  apply le_roundUnits_of_le_truncated
  obtain ⟨m, j, hm, rfl⟩ := ha
  generalize num / den = q at hquotient
  by_cases hj : spare q ≤ j
  · -- nothing of the magnitude lies among the bits that are cut off
    have hsplit : m * 2 ^ j = m * 2 ^ (j - spare q) * 2 ^ spare q := by
      rw [Nat.mul_assoc, ← Nat.pow_add, Nat.sub_add_cancel hj]
    rw [hsplit] at hquotient ⊢
    exact Nat.mul_le_mul_right _ ((Nat.le_div_iff_mul_le (Nat.two_pow_pos _)).mpr hquotient)
  · -- the magnitude ends below the leading bit of the quotient
    have hspare : q.log2 = 52 + spare q := by
      unfold spare at hj ⊢
      omega
    have hq : q ≠ 0 := by
      rintro rfl
      rw [Nat.log2_zero] at hspare
      omega
    have hlead : 2 ^ 52 ≤ q / 2 ^ spare q := by
      rw [Nat.le_div_iff_mul_le (Nat.two_pow_pos _), ← Nat.pow_add, ← hspare]
      exact Nat.log2_self_le hq
    calc m * 2 ^ j ≤ 2 ^ 53 * 2 ^ j := Nat.mul_le_mul_right _ (Nat.le_of_lt hm)
      _ = 2 ^ (53 + j) := (Nat.pow_add ..).symm
      _ ≤ 2 ^ (52 + spare q) := Nat.pow_le_pow_right (by decide) (by omega)
      _ = 2 ^ 52 * 2 ^ spare q := Nat.pow_add ..
      _ ≤ q / 2 ^ spare q * 2 ^ spare q := Nat.mul_le_mul_right _ hlead

theorem roundUnits_zero (hden : 0 < den) : roundUnits 0 den = 0 := by
  have hzero : nearest 0 (den * Nat.pow 2 (spare 0)) = 0 := by
    have hpos : 0 < den * Nat.pow 2 (spare 0) := Nat.mul_pos hden (Nat.two_pow_pos _)
    rw [nearest, Nat.zero_div, Nat.zero_mod]
    exact if_pos hpos
  rw [roundUnits, Nat.zero_div, hzero, Nat.zero_mul]

theorem round_eq_or (negative : Bool) (num den : Nat) :
    round negative num den = finite negative (roundUnits num den) ∨
      round negative num den = infinite negative := by
  unfold round
  dsimp only
  split
  · exact .inl rfl
  · exact .inr rfl

-- Neither bound is ever computed.
theorem one_pos : 0 < one := by
  unfold one
  generalize 1074 = k
  exact Nat.two_pow_pos k

theorem limit_pos : 0 < limit := by
  unfold limit
  generalize 2098 = k
  exact Nat.two_pow_pos k

theorem round_zero (hden : 0 < den) : round negative 0 den = finite negative 0 := by
  unfold round
  rw [roundUnits_zero hden]
  exact if_pos limit_pos

theorem ofNat_zero : ofNat 0 = zero := by
  rw [ofNat, Nat.zero_mul]
  exact round_zero Nat.one_pos

theorem finite_times (negative : Bool) (a units : Nat) :
    (finite negative a).times units = round negative (a * units) one := rfl

theorem zero_times (units : Nat) : zero.times units = zero := by
  rw [zero, finite_times, Nat.zero_mul]
  exact round_zero one_pos

end GuestControl.Binary64
