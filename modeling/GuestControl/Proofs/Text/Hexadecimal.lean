import GuestControl.Proofs.Text.Numerals

/-!
# Hexadecimal numerals

What a hexadecimal numeral of some width is can be said without writing one. Only one
text is the numeral of a number, and that is the one that is written.
-/

namespace GuestControl.Text.Numeral

def capital (d : Fin 16) : Char := "0123456789ABCDEF".toList.get ⟨d.val, d.isLt⟩

def small (d : Fin 16) : Char := "0123456789abcdef".toList.get ⟨d.val, d.isLt⟩

/-- The text consists of at least so many digits, and they denote the number. A zero does
not stand before more digits than that. -/
inductive IsHex (width : Nat) : List Char → Nat → Prop
  | intro (ds : List (Fin 16)) : width ≤ ds.length → (width < ds.length → ds.head? ≠ some 0) →
      IsHex width (ds.map capital) (Nat.ofDigits 16 (ds.reverse.map Fin.val))

variable {width n : Nat} {s t : List Char} {ds ds' : List (Fin 16)}

-- ---------------------------------------------------------------------------
-- One numeral for each number
-- ---------------------------------------------------------------------------

theorem lt_of_mem_places (ds : List (Fin 16)) : ∀ k ∈ ds.reverse.map Fin.val, k < 16 := by
  simp

theorem ofDigits_lt (ds : List (Fin 16)) :
    Nat.ofDigits 16 (ds.reverse.map Fin.val) < 16 ^ ds.length := by
  simpa using Nat.ofDigits_lt_base_pow_length (by decide) (lt_of_mem_places ds)

theorem pow_le_ofDigits (d : Fin 16) (hd : d ≠ 0) (ds : List (Fin 16)) :
    16 ^ ds.length ≤ Nat.ofDigits 16 ((d :: ds).reverse.map Fin.val) := by
  have hpos : 0 < d.val := by omega
  rw [List.map_reverse, List.map_cons, Nat.ofDigits_reverse_cons, List.length_map]
  exact Nat.le_add_left_of_le (Nat.le_mul_of_pos_right _ hpos)

theorem length_le_of_ofDigits_eq (hfilled : width ≤ ds'.length)
    (hshort : width < ds.length → ds.head? ≠ some 0)
    (h : Nat.ofDigits 16 (ds.reverse.map Fin.val) = Nat.ofDigits 16 (ds'.reverse.map Fin.val)) :
    ds.length ≤ ds'.length := by
  by_contra hlonger
  cases ds with
  | nil => exact hlonger (Nat.zero_le _)
  | cons d ds =>
    simp only [List.length_cons] at hlonger hshort
    have hd : d ≠ 0 := fun hzero => hshort (by omega) (congrArg some hzero)
    -- its first digit alone is worth more than all that the shorter one can hold
    have hlow := pow_le_ofDigits d hd ds
    have hhigh := ofDigits_lt ds'
    have hpow : 16 ^ ds'.length ≤ 16 ^ ds.length := Nat.pow_le_pow_right (by decide) (by omega)
    omega

theorem IsHex.unique (hs : IsHex width s n) (ht : IsHex width t n) : s = t := by
  obtain ⟨ds, hfilled, hshort⟩ := hs
  generalize hvalue : Nat.ofDigits 16 (ds.reverse.map Fin.val) = m at ht
  obtain ⟨ds', hfilled', hshort'⟩ := ht
  have hlength : ds.length = ds'.length :=
    le_antisymm (length_le_of_ofDigits_eq hfilled' hshort hvalue)
      (length_le_of_ofDigits_eq hfilled hshort' hvalue.symm)
  have hplaces := Nat.ofDigits_inj_of_len_eq (by decide) (by simp [hlength])
    (lt_of_mem_places ds) (lt_of_mem_places ds') hvalue
  rw [List.map_reverse, List.map_reverse, List.reverse_inj] at hplaces
  rw [(List.map_inj_right fun _ _ => Fin.ext).mp hplaces]

-- ---------------------------------------------------------------------------
-- What is written
-- ---------------------------------------------------------------------------

theorem digitCapital_eq (d : Fin 16) : digitCapital d.val = capital d := by
  revert d; decide

theorem digitChar_eq_small (d : Fin 16) : digitChar d.val = small d := by
  revert d; decide

theorem toList_hexCapital (width n : Nat) :
    (hexCapital width n).toList = (filled (by decide) width n).map capital := by
  have hzero : capital 0 = '0' := by decide
  simp [hexCapital, hexDigits, filled, digitCapital_eq, hzero]

theorem head?_filled (hwidth : 0 < width)
    (hlong : width < (filled (b := 16) (by decide) width n).length) :
    (filled (b := 16) (by decide) width n).head? ≠ some 0 := by
  have hnone : width - (hexDigits n).length = 0 := by
    simp only [filled, List.length_append, List.length_replicate] at hlong
    simp only [hexDigits]
    omega
  rw [filled, ← hexDigits, hnone, List.replicate_zero, List.nil_append] at hlong ⊢
  obtain rfl | hpos := Nat.eq_zero_or_pos n
  · exact absurd hlong (by rw [hexDigits, digits, digitsBefore]; simp; omega)
  · obtain ⟨d, ds, hds, hd⟩ : ∃ d ds, hexDigits n = d :: ds ∧ 0 < d.val :=
      head_digitsBefore (by decide) (Nat.lt_succ_self n) hpos
    rintro hhead
    rw [hds, List.head?_cons, Option.some.injEq] at hhead
    exact absurd hd (by simp [hhead])

theorem isHex_hexCapital (hwidth : 0 < width) (n : Nat) :
    IsHex width (hexCapital width n).toList n := by
  have hlong := le_length_filled (b := 16) (by decide) width n
  have h := IsHex.intro _ hlong (head?_filled hwidth)
  rwa [ofDigits_filled (by decide), ← toList_hexCapital] at h

/-- The numeral that is written is the only one. -/
theorem isHex_iff (hwidth : 0 < width) :
    IsHex width s n ↔ s = (hexCapital width n).toList := by
  constructor
  · intro h
    exact h.unique (isHex_hexCapital hwidth n)
  · rintro rfl
    exact isHex_hexCapital hwidth n

end GuestControl.Text.Numeral
