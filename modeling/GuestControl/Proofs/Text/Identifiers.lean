import GuestControl.Guid
import GuestControl.Proofs.Text.Trimming

/-!
# The characters of identifiers

In whatever form an identifier is written, the characters are digits, letters, hyphens,
braces and colons: there is no blank among them and nothing that ends a literal.
-/

namespace GuestControl

open Text.Numeral (digit? digits?)

/-- From the hyphen to the closing brace, in the order of the code points. -/
def Text.IsWordy (c : Char) : Prop := 45 ≤ c.toNat ∧ c.toNat ≤ 125

instance (c : Char) : Decidable (Text.IsWordy c) := inferInstanceAs (Decidable (_ ∧ _))

variable {b : Nat} {c : Char} {s t : List Char} {ds : List (Fin b)} {sizes : List Nat} {g : Guid}

namespace Text

theorem IsWordy.not_blank (h : IsWordy c) : isBlank c = false := by
  obtain ⟨hlow, hhigh⟩ := h
  have hne : ∀ n ∈ blankCodes, n < 45 ∨ 125 < n := by decide
  rw [isBlank, List.contains_eq_mem, decide_eq_false_iff_not]
  intro hmem
  have := hne _ hmem
  omega

theorem isWordy_of_digit? {d : Fin 16} (h : digit? 16 c = some d) : IsWordy c := by
  unfold Numeral.digit? at h
  unfold IsWordy
  grind

theorem isWordy_of_lowerChar (h : IsWordy (lowerChar c)) : IsWordy c := by
  unfold lowerChar at h
  split at h
  · unfold IsWordy
    omega
  · exact h

theorem Numeral.digit?_of_mem (h : digits? b s = some ds) (hc : c ∈ s) :
    ∃ d, digit? b c = some d := by
  induction s generalizing ds with
  | nil => cases hc
  | cons c' s ih =>
    simp only [digits?, List.mapM_cons, Option.bind_eq_bind, Option.bind_eq_some_iff] at h
    obtain ⟨d, hd, ds', hds', -⟩ := h
    obtain rfl | hc := List.mem_cons.mp hc
    · exact ⟨d, hd⟩
    · exact ih hds' hc

end Text

open Text (IsWordy)

namespace Guid

theorem isWordy_of_plain? (h : plain? s = some g) : ∀ c ∈ s, IsWordy c := by
  intro c hc
  obtain ⟨ds, hds, -⟩ := Option.bind_eq_some_iff.mp h
  obtain ⟨d, hd⟩ := Text.Numeral.digit?_of_mem hds hc
  exact Text.isWordy_of_digit? hd

theorem mem_of_unhyphenate? (h : unhyphenate? sizes s = some t) (hc : c ∈ s) : c = '-' ∨ c ∈ t := by
  fun_induction unhyphenate? sizes s generalizing t with
  | case1 s => simp_all
  | case2 => cases h
  | case3 s => simp_all
  | case4 => cases h
  | case5 n ns s _ rest hrest ih =>
    obtain ⟨t', ht', rfl⟩ := Option.map_eq_some_iff.mp h
    rw [← List.take_append_drop n s, hrest] at hc
    obtain hc | hc := List.mem_append.mp hc
    · exact .inr (List.mem_append_left _ hc)
    · obtain rfl | hc := List.mem_cons.mp hc
      · exact .inl rfl
      · exact (ih ht' hc).imp_right (List.mem_append_right _)
  | case6 => cases h

theorem isWordy_of_grouped? (h : grouped? s = some g) : ∀ c ∈ s, IsWordy c := by
  intro c hc
  obtain ⟨t, ht, hplain⟩ := Option.bind_eq_some_iff.mp h
  obtain rfl | hc := mem_of_unhyphenate? ht hc
  · decide
  · exact isWordy_of_plain? hplain c hc

theorem isWordy_of_parseChars? (h : parseChars? s = some g) : ∀ c ∈ s, IsWordy c := by
  unfold parseChars? at h
  split at h
  · exact isWordy_of_plain? h
  split at h
  · exact isWordy_of_grouped? h
  split at h
  · rename_i hbraces
    obtain ⟨hlength, hhead, hlast⟩ := hbraces
    obtain ⟨front, rfl⟩ := List.getLast?_eq_some_iff.mp hlast
    cases front with
    | nil => cases hlength
    | cons d inside =>
      obtain rfl := Option.some.inj hhead
      have hinside : (('\x7b' :: inside ++ ['\x7d']).drop 1).dropLast = inside :=
        List.dropLast_concat
      rw [hinside] at h
      intro c hc
      simp only [List.cons_append, List.mem_cons, List.mem_append, List.not_mem_nil,
        or_false] at hc
      obtain rfl | hc | rfl := hc
      · decide
      · exact isWordy_of_grouped? h c hc
      · decide
  split at h
  · rename_i hurn
    intro c hc
    rw [← List.take_append_drop 9 s] at hc
    obtain hc | hc := List.mem_append.mp hc
    · have hlower : Text.lowerChar c ∈ urnPrefix := hurn.2 ▸ List.mem_map_of_mem hc
      -- A statement on all characters would be decided by going through all there are.
      have hwordy : urnPrefix.all (IsWordy ·) = true := by decide
      exact Text.isWordy_of_lowerChar (of_decide_eq_true (List.all_eq_true.mp hwordy _ hlower))
    · exact isWordy_of_grouped? h c hc
  · cases h

theorem trim_text (g : Guid) : Text.trim g.text = g.text := by
  have hwordy := isWordy_of_parseChars? (parse?_text g)
  rw [Text.trim, Text.trimChars_of_not_blank fun c hc => (hwordy c hc).not_blank,
    String.ofList_toList]

end Guid

end GuestControl
