import GuestControl.Text.Quoted
import Mathlib.Algebra.GroupWithZero.Nat
import Mathlib.Data.List.Basic

/-!
# Literals as the shell reads them

The shell takes five characters for a single quote. Inside a literal two of them
in a row denote one, and one alone ends the literal. A literal that doubles the
plain quote only is therefore read back exactly if its text has none of the others,
and so is a text put together from code and literals (`Written.lexemes?_iff`).
-/

namespace GuestControl.Text.Quoted

def marks : List Char := [quote, '\u2018', '\u2019', '\u201a', '\u201b']

def isMark (c : Char) : Bool := marks.contains c

inductive Lexeme where
  | code (c : Char)
  | literal (value : List Char)
  deriving DecidableEq

/-- Reads on, outside of literals or inside one whose value so far is given
backwards. Of two marks in a row inside a literal the second counts. -/
def scan : Option (List Char) → List Char → Option (List Lexeme)
  | none, [] => some []
  | none, c :: rest =>
    if isMark c then scan (some []) rest else (scan none rest).map (.code c :: ·)
  | some _, [] => none
  | some value, c :: rest =>
    if isMark c then
      match rest with
      | [] => some [.literal value.reverse]
      | d :: after =>
        if isMark d then scan (some (d :: value)) after
        else (scan none (d :: after)).map (.literal value.reverse :: ·)
    else scan (some (c :: value)) rest

/-- The lexemes of a script, unless a literal is left open. -/
def lexemes? (script : String) : Option (List Lexeme) := scan none script.toList

/-- The only single quotes in the text are plain ones. -/
def Straight (s : List Char) : Prop := ∀ c ∈ s, isMark c = true → c = quote

instance (s : List Char) : Decidable (Straight s) := List.decidableBAll _ s

def Closes (rest : List Char) : Prop := ∀ c ∈ rest.head?, isMark c = false

def code (text : String) : List Lexeme := text.toList.map .code

def Unmarked (s : List Char) : Prop := ∀ c ∈ s, isMark c = false

instance (s : List Char) : Decidable (Unmarked s) := List.decidableBAll _ s

/-- Text that is put together from code and literals, with the lexemes that are
meant and the strings that may hold anything. -/
inductive Written : String → List Lexeme → List String → Prop
  | code {text : String} (h : Unmarked text.toList) : Written text (code text) []
  | fixed {s : String} (h : Unmarked s.toList) : Written (literal s) [.literal s.toList] []
  | string (s : String) : Written (literal s) [.literal s.toList] [s]
  | before {s t : String} {ms : List Lexeme} {ts : List String} (hs : Unmarked s.toList)
      (ht : Written t ms ts) : Written (s ++ t) (Quoted.code s ++ ms) ts
  /-- After a literal there must be no single quote. -/
  | append {s t : String} {ls ms : List Lexeme} {ss ts : List String} (hs : Written s ls ss)
      (ht : Written t ms ts) (hc : Closes t.toList) : Written (s ++ t) (ls ++ ms) (ss ++ ts)

variable {s rest value : List Char} {ls : List Lexeme} {c : Char} {t : String}
  {strings : List String}

theorem isMark_quote : isMark quote = true := rfl

theorem Unmarked.append {s t : List Char} (hs : Unmarked s) (ht : Unmarked t) :
    Unmarked (s ++ t) := by
  intro c hc
  rcases List.mem_append.mp hc with hc | hc
  · exact hs c hc
  · exact ht c hc

theorem Unmarked.straight {s : List Char} (h : Unmarked s) : Straight s := by
  intro c hc hmark
  rw [h c hc] at hmark
  cases hmark

theorem Unmarked.countP {s : List Char} (h : Unmarked s) : s.countP isMark = 0 :=
  List.countP_eq_zero.mpr fun c hc => by rw [h c hc]; exact Bool.false_ne_true

theorem closes_append {s t : List Char} (hs : Unmarked s) (hne : s ≠ []) : Closes (s ++ t) := by
  intro c hc
  cases s with
  | nil => exact absurd rfl hne
  | cons d s =>
    obtain rfl : d = c := Option.some.inj hc
    exact hs d List.mem_cons_self

-- ---------------------------------------------------------------------------
-- What is written is read back
-- ---------------------------------------------------------------------------

theorem scan_inside (hc : isMark c = false) :
    scan (some value) (c :: rest) = scan (some (c :: value)) rest := by
  cases rest <;> simp [scan, hc]

theorem scan_encode (hs : Straight s) (hrest : Closes rest) (value : List Char) :
    scan (some value) (encode s ++ quote :: rest) =
      (scan none rest).map (.literal (value.reverse ++ s) :: ·) := by
  induction s generalizing value with
  | nil =>
    cases rest with
    | nil => simp [encode, scan, isMark_quote]
    | cons d rest =>
      have hd : isMark d = false := hrest d rfl
      simp [encode, scan, isMark_quote, hd]
  | cons c s ih =>
    have ih := ih fun d hd => hs d (List.mem_cons_of_mem c hd)
    by_cases hc : c = quote
    · subst hc
      simp [encode, scan, isMark_quote, ih]
    · have hmark : isMark c = false := by
        cases hm : isMark c with
        | false => rfl
        | true => exact absurd (hs c List.mem_cons_self hm) hc
      rw [encode, if_neg hc, List.cons_append, scan_inside hmark, ih]
      simp

theorem scan_literal {s : String} (hs : Straight s.toList) (hrest : Closes rest) :
    scan none ((literal s).toList ++ rest) =
      (scan none rest).map (.literal s.toList :: ·) := by
  simp only [literal, String.toList_ofList, List.cons_append, List.append_assoc,
    List.nil_append, scan, isMark_quote, if_true]
  exact scan_encode hs hrest []

theorem scan_code {text : List Char} (htext : Unmarked text) (rest : List Char) :
    scan none (text ++ rest) = (scan none rest).map (text.map .code ++ ·) := by
  induction text with
  | nil => simp
  | cons c text ih =>
    have hc := htext c List.mem_cons_self
    rw [List.cons_append, scan, hc, ih fun d hd => htext d (List.mem_cons_of_mem c hd)]
    simp [Function.comp_def]

theorem Written.scan (h : Written t ls strings) (hs : ∀ s ∈ strings, Straight s.toList)
    {rest : List Char} (hrest : Closes rest) :
    scan none (t.toList ++ rest) = (scan none rest).map (ls ++ ·) := by
  induction h generalizing rest with
  | code h => exact scan_code h rest
  | fixed h => exact scan_literal h.straight hrest
  | string s => exact scan_literal (hs s List.mem_cons_self) hrest
  | before hcode _ ih =>
    rw [String.toList_append, List.append_assoc, scan_code hcode, ih hs hrest]
    simp [Quoted.code, Function.comp_def]
  | @append s t _ _ ss ts _ _ hc ihs iht =>
    have hclose : Closes (t.toList ++ rest) := by
      intro c hmem
      cases ht : t.toList with
      | nil => exact hrest c (by simpa [ht] using hmem)
      | cons d ds => exact hc c (by simpa [ht] using hmem)
    rw [String.toList_append, List.append_assoc,
      ihs (fun s hmem => hs s (List.mem_append_left ts hmem)) hclose,
      iht (fun s hmem => hs s (List.mem_append_right ss hmem)) hrest]
    simp [Function.comp_def]

-- ---------------------------------------------------------------------------
-- What is read back is straight
-- ---------------------------------------------------------------------------

/-- How many characters a lexeme takes up: in a literal every mark stands twice. -/
def Lexeme.size : Lexeme → Nat
  | .code _ => 1
  | .literal value => value.length + value.countP isMark + 2

def openSize : Option (List Char) → Nat
  | none => 0
  | some value => value.length + value.countP isMark + 1

theorem size_scan {state : Option (List Char)} {text : List Char} :
    scan state text = some ls → (ls.map Lexeme.size).sum = text.length + openSize state := by
  fun_induction scan state text generalizing ls with
  | case1 =>
    rintro ⟨⟩
    rfl
  | case2 c rest hc ih =>
    intro h
    have := ih h
    simp only [openSize, List.length_nil, List.countP_nil, List.length_cons] at this ⊢
    omega
  | case3 c rest hc ih =>
    intro h
    obtain ⟨ls, hls, rfl⟩ := Option.map_eq_some_iff.mp h
    have := ih hls
    simp only [openSize, List.map_cons, List.sum_cons, Lexeme.size, List.length_cons] at this ⊢
    omega
  | case4 => nofun
  | case5 value c hc =>
    rintro ⟨⟩
    simp only [openSize, List.map_cons, List.map_nil, List.sum_cons, List.sum_nil, Lexeme.size,
      List.length_reverse, List.countP_reverse, List.length_cons, List.length_nil]
    omega
  | case6 value c hc d after hd ih =>
    intro h
    have := ih h
    simp only [openSize, List.length_cons, List.countP_cons, hd, if_true] at this ⊢
    omega
  | case7 value c hc d after hd ih =>
    intro h
    obtain ⟨ls, hls, rfl⟩ := Option.map_eq_some_iff.mp h
    have := ih hls
    simp only [openSize, List.map_cons, List.sum_cons, Lexeme.size, List.length_reverse,
      List.countP_reverse, List.length_cons] at this ⊢
    omega
  | case8 value c rest hc ih =>
    intro h
    have := ih h
    simp only [openSize, List.length_cons, List.countP_cons, hc, Bool.false_eq_true,
      if_false] at this ⊢
    omega

theorem length_encode (s : List Char) : (encode s).length = s.length + s.count quote := by
  induction s with
  | nil => rfl
  | cons c s ih => by_cases hc : c = quote <;> simp [encode, hc, ih] <;> omega

theorem length_literal (s : String) :
    (literal s).toList.length = s.toList.length + s.toList.count quote + 2 := by
  simp only [literal, String.toList_ofList, List.length_cons, List.length_append,
    List.length_nil, length_encode]

/-- A text has at least as many marks as plain quotes, and only a straight one no more. -/
theorem count_quote_le (s : List Char) : s.count quote ≤ s.countP isMark := by
  refine List.countP_mono_left fun c _ hc => ?_
  rw [eq_of_beq hc, isMark_quote]

theorem straight_of_count (h : s.countP isMark = s.count quote) : Straight s := by
  induction s with
  | nil => exact nofun
  | cons c s ih =>
    have hle := count_quote_le s
    have hhead : isMark c = true → c = quote := by
      intro hc
      by_contra hne
      simp only [List.countP_cons, List.count_cons, hc, if_true, beq_iff_eq, hne, if_false] at h
      omega
    intro d hd hmark
    rcases List.mem_cons.mp hd with rfl | hd
    · exact hhead hmark
    · refine ih ?_ d hd hmark
      by_cases hc : c = quote
      · simpa [List.countP_cons, List.count_cons, hc, isMark_quote] using h
      · have hc' : isMark c = false := Bool.eq_false_iff.mpr fun hm => hc (hhead hm)
        simpa [List.countP_cons, List.count_cons, hc, hc'] using h

theorem size_code (text : String) :
    ((code text).map Lexeme.size).sum = text.toList.length := by
  simp [code, Function.comp_def, Lexeme.size]

/-- The meant lexemes take up more than the text, by one for each mark in a string
that is not written twice. -/
theorem Written.size (h : Written t ls strings) :
    (ls.map Lexeme.size).sum + (strings.flatMap String.toList).count quote =
      t.toList.length + (strings.flatMap String.toList).countP isMark := by
  induction h with
  | @code text =>
    simp only [size_code, List.flatMap_nil, List.count_nil, List.countP_nil]
  | @fixed s h =>
    have hquotes := count_quote_le s.toList
    have hmarks := h.countP
    simp only [List.map_cons, List.map_nil, List.sum_cons, List.sum_nil, Lexeme.size,
      length_literal, List.flatMap_nil, List.count_nil, List.countP_nil]
    omega
  | string s =>
    simp only [List.map_cons, List.map_nil, List.sum_cons, List.sum_nil, Lexeme.size,
      length_literal, List.flatMap_cons, List.flatMap_nil, List.append_nil]
    omega
  | before _ _ ih =>
    simp only [List.map_append, List.sum_append, size_code, String.toList_append,
      List.length_append]
    omega
  | append _ _ _ ihs iht =>
    simp only [List.map_append, List.sum_append, List.flatMap_append, List.count_append,
      List.countP_append, String.toList_append, List.length_append]
    omega

theorem Written.lexemes?_iff (h : Written t ls strings) :
    lexemes? t = some ls ↔ ∀ s ∈ strings, Straight s.toList := by
  constructor
  · intro hread
    have hsize := size_scan hread
    have hmeant := h.size
    simp only [openSize] at hsize
    -- both sizes are that of the text, so each mark in a string has been written twice
    have hall : Straight (strings.flatMap String.toList) := straight_of_count (by omega)
    exact fun s hs c hc => hall c (List.mem_flatMap.mpr ⟨s, hs, hc⟩)
  · intro hs
    have hclose : Closes [] := nofun
    simpa [lexemes?, Quoted.scan] using h.scan hs hclose

end GuestControl.Text.Quoted
