import GuestControl.Text.Blank
import Mathlib.Data.List.TakeWhile

/-!
# Trimming

A trimmed text has no blank at either end, so that trimming it again changes nothing;
and nothing but blanks is lost.
-/

namespace GuestControl.Text

variable {c : Char} {s t : List Char}

theorem suffix_trimStart (s : List Char) : trimStart s <:+ s := List.dropWhile_suffix isBlank

theorem prefix_trimChars (s : List Char) : trimChars s <+: trimStart s := by
  rw [← List.reverse_suffix, trimChars, List.reverse_reverse]
  exact suffix_trimStart _

theorem trimStart_of_not_blank (h : isBlank c = false) : trimStart (c :: s) = c :: s :=
  List.dropWhile_cons_of_neg (by simp [h])

theorem not_blank_of_trimStart (h : trimStart s = c :: t) : isBlank c = false := by
  have hhead := List.head?_dropWhile_not isBlank s
  rwa [← trimStart, h] at hhead

theorem trimStart_trimStart (s : List Char) : trimStart (trimStart s) = trimStart s := by
  cases h : trimStart s with
  | nil => rfl
  | cons c t => exact trimStart_of_not_blank (not_blank_of_trimStart h)

theorem trimStart_trimChars (s : List Char) : trimStart (trimChars s) = trimChars s := by
  cases h : trimChars s with
  | nil => rfl
  | cons c t =>
    obtain ⟨rest, hrest⟩ := prefix_trimChars s
    rw [h] at hrest
    exact trimStart_of_not_blank (not_blank_of_trimStart hrest.symm)

theorem trimChars_trimChars (s : List Char) : trimChars (trimChars s) = trimChars s := by
  have hend : trimStart (trimChars s).reverse = (trimChars s).reverse := by
    rw [trimChars, List.reverse_reverse, trimStart_trimStart]
  rw [trimChars, trimStart_trimChars, hend, List.reverse_reverse]

@[simp]
theorem trim_trim (s : String) : trim (trim s) = trim s := by
  simp only [trim, String.toList_ofList, trimChars_trimChars]

theorem trimStart_of_not_blanks (h : ∀ c ∈ s, isBlank c = false) : trimStart s = s := by
  cases s with
  | nil => rfl
  | cons c t => exact trimStart_of_not_blank (h c List.mem_cons_self)

theorem trimChars_of_not_blank (h : ∀ c ∈ s, isBlank c = false) : trimChars s = s := by
  rw [trimChars, trimStart_of_not_blanks h,
    trimStart_of_not_blanks fun c hc => h c (List.mem_reverse.mp hc), List.reverse_reverse]

theorem mem_of_mem_trimStart (h : c ∈ s) : isBlank c = true ∨ c ∈ trimStart s := by
  rw [← List.takeWhile_append_dropWhile (p := isBlank) (l := s)] at h
  obtain h | h := List.mem_append.mp h
  · exact .inl (List.mem_takeWhile_imp h)
  · exact .inr h

theorem blank_or_mem_trimChars (h : c ∈ s) : isBlank c = true ∨ c ∈ trimChars s := by
  obtain h | h := mem_of_mem_trimStart h
  · exact .inl h
  · obtain h | h := mem_of_mem_trimStart (List.mem_reverse.mpr h)
    · exact .inl h
    · exact .inr (List.mem_reverse.mpr h)

end GuestControl.Text
