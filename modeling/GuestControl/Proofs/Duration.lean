import GuestControl.Duration
import GuestControl.Proofs.Text.Numerals

/-!
# How durations are shown

A duration is shown as a number of one unit that is exactly the duration.
-/

namespace GuestControl

open Text.Numeral

namespace Duration

/-- The units with the decimal places that nanoseconds take in them. -/
def units : List (Nat × String) := [(9, "s"), (6, "ms"), (3, "µs"), (0, "ns")]

/-- The text counts in the largest unit of which the duration holds at least one. The rest
are decimal places, of which the last is not zero. -/
inductive Shown : Duration → String → Prop
  | intro (whole : Nat) {places : Nat} {unit : String} (fraction : List (Fin 10)) :
      (places, unit) ∈ units →
      (whole = 0 → places = 0) → (1000 ≤ whole → places = 9) →
      fraction.length ≤ places → fraction.getLast? ≠ some 0 →
      Shown ⟨whole * 10 ^ places +
          10 ^ (places - fraction.length) * Nat.ofDigits 10 (fraction.reverse.map Fin.val)⟩
        (toString whole ++ (if fraction = [] then "" else
          "." ++ String.ofList (fraction.map fun d => Nat.digitChar d.val)) ++ unit)

variable {n places : Nat} {unit : String} {b : Nat} [NeZero b]

def kept (ds : List (Fin b)) : List (Fin b) := (ds.reverse.dropWhile (· == 0)).reverse

theorem getLast?_kept (ds : List (Fin b)) : (kept ds).getLast? ≠ some 0 := by
  have h := List.head?_dropWhile_not (· == 0) ds.reverse
  rw [kept, List.getLast?_reverse]
  intro hzero
  simp [hzero] at h

theorem exists_kept_append (ds : List (Fin b)) : ∃ k, ds = kept ds ++ List.replicate k 0 := by
  have hzeros : ∀ d ∈ ds.reverse.takeWhile (· == 0), d = 0 := by
    intro d hd
    simpa using List.mem_takeWhile_imp hd
  have hsplit := List.takeWhile_append_dropWhile (p := (· == 0)) (l := ds.reverse)
  rw [List.eq_replicate_of_mem hzeros] at hsplit
  refine ⟨(ds.reverse.takeWhile (· == 0)).length, ?_⟩
  rw [kept, ← List.reverse_inj, List.reverse_append, List.reverse_replicate, List.reverse_reverse]
  exact hsplit.symm

theorem ofDigits_kept (ds : List (Fin b)) :
    (kept ds).length ≤ ds.length ∧ Nat.ofDigits b (ds.reverse.map Fin.val) =
      b ^ (ds.length - (kept ds).length) * Nat.ofDigits b ((kept ds).reverse.map Fin.val) := by
  obtain ⟨k, hk⟩ := exists_kept_append ds
  have hlength : ds.length = (kept ds).length + k := by simpa using congrArg List.length hk
  have hvalue : Nat.ofDigits b (ds.reverse.map Fin.val) =
      b ^ k * Nat.ofDigits b ((kept ds).reverse.map Fin.val) := by
    conv_lhs => rw [hk]
    rw [List.reverse_append, List.reverse_replicate, List.map_append, List.map_replicate,
      Nat.ofDigits_append, List.length_replicate]
    simp [Nat.ofDigits_replicate_zero]
  exact ⟨by omega, by rw [hvalue, hlength, Nat.add_sub_cancel_left]⟩

theorem fractional_eq {ds : List (Fin 10)}
    (hds : filled (by decide) places (n % 10 ^ places) = ds) :
    fractional n places = toString (n / 10 ^ places) ++ if kept ds = [] then "" else
      "." ++ String.ofList ((kept ds).map fun d => Nat.digitChar d.val) := by
  have hchar : (fun d : Fin 10 => digitChar d.val) = fun d => Nat.digitChar d.val :=
    funext digitChar_eq
  have hzero : (· == '0') ∘ (fun d : Fin 10 => Nat.digitChar d.val) = (· == 0) := by
    funext d
    revert d
    decide
  have hpadded : List.replicate (places - (decimalChars (n % 10 ^ places)).length) '0' ++
      decimalChars (n % 10 ^ places) = ds.map fun d => Nat.digitChar d.val := by
    simp only [← hds, filled, decimalChars, decimalDigits, hchar, List.map_append,
      List.map_replicate, List.length_map]
    rfl
  have hkept : (((ds.map fun d => Nat.digitChar d.val).reverse.dropWhile (· == '0')).reverse) =
      (kept ds).map fun d => Nat.digitChar d.val := by
    rw [kept, ← List.map_reverse, List.dropWhile_map, hzero, List.map_reverse]
  simp only [fractional, Nat.pow_eq, hpadded, hkept, decimal_eq_repr, List.isEmpty_iff,
    List.map_eq_nil_iff]
  split
  · exact (String.append_empty).symm
  · exact String.append_assoc

theorem shown_fractional (hunit : (places, unit) ∈ units)
    (hplaces : 0 < places) (hlow : 10 ^ places ≤ n) (hhigh : n < 10 ^ (places + 3) ∨ places = 9) :
    Shown ⟨n⟩ (fractional n places ++ unit) := by
  have hrest := ofDigits_filled (b := 10) (by decide) places (n % 10 ^ places)
  have hlength := length_filled (b := 10) (by decide) hplaces (Nat.mod_lt n (by positivity))
  generalize hds : filled (b := 10) (by decide) places (n % 10 ^ places) = ds at hrest hlength
  -- without the zeros at its end the rest is worth the same, in fewer places
  obtain ⟨hkept, hvalue⟩ := ofDigits_kept ds
  rw [hlength] at hkept hvalue
  rw [hrest] at hvalue
  have h := Shown.intro (n / 10 ^ places) _ hunit ?_ ?_ hkept (getLast?_kept _)
  · rwa [← hvalue, Nat.div_add_mod', ← fractional_eq hds] at h
  · intro hnone
    have := Nat.div_pos hlow (by positivity)
    omega
  · intro hmany
    refine hhigh.resolve_left fun hless => ?_
    rw [Nat.pow_add] at hless
    have := Nat.div_lt_of_lt_mul hless
    omega

theorem shown_text (d : Duration) : d.Shown d.text := by
  obtain ⟨n⟩ := d
  unfold text
  dsimp only
  split
  · exact shown_fractional (by decide) (by decide) ‹_› (.inr rfl)
  split
  · exact shown_fractional (by decide) (by decide) ‹_› (.inl (by omega))
  split
  · exact shown_fractional (by decide) (by decide) ‹_› (.inl (by omega))
  · have hunit : (0, "ns") ∈ units := by decide
    have h := Shown.intro n [] hunit (fun _ => rfl) (fun _ => by omega) (by decide) (by decide)
    simpa [decimal_eq_repr] using h

end Duration
end GuestControl
