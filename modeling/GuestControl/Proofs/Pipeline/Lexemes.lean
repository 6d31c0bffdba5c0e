import GuestControl.Pipeline.Script
import GuestControl.Proofs.Pipeline.Literals
import GuestControl.Proofs.Text.Identifiers
import Mathlib.Data.List.Forall2

/-!
# Scripts as the shell reads them

Names, numbers and separators of a script stand outside of its literals, and what
comes from callers, strings and identifiers, stands inside. A script is read as it
was meant exactly if the strings in it are straight; then nothing of them is read
as anything but the value of a literal.
-/

namespace GuestControl

namespace Text.Quoted

variable {s : String}

-- ---------------------------------------------------------------------------
-- Numerals and identifiers
-- ---------------------------------------------------------------------------

theorem isMark_digitChar (d : Fin 16) : isMark (Numeral.digitChar d.val) = false := by
  revert d
  decide

theorem unmarked_decimal (n : Nat) : Unmarked (Numeral.decimal n).toList := by
  intro c hc
  simp only [Numeral.decimal, String.toList_ofList, Numeral.decimalChars, List.mem_map] at hc
  obtain ⟨d, -, rfl⟩ := hc
  exact isMark_digitChar ⟨d.val, by omega⟩

theorem unmarked_signed (i : Int) : Unmarked (Numeral.signed i).toList := by
  cases i with
  | ofNat n => exact unmarked_decimal n
  | negSucc n =>
    rw [Numeral.signed, String.toList_append]
    exact Unmarked.append (by decide) (unmarked_decimal _)

theorem unmarked_of_wordy {s : List Char} (h : ∀ c ∈ s, IsWordy c) : Unmarked s := by
  have hmarks : marks.any (IsWordy ·) = false := by decide
  intro c hc
  rw [isMark, List.contains_eq_mem, decide_eq_false_iff_not]
  exact fun hmark => List.any_eq_false.mp hmarks c hmark (decide_eq_true (h c hc))

theorem unmarked_guid (g : Guid) : Unmarked g.text.toList :=
  unmarked_of_wordy (Guid.isWordy_of_parseChars? (Guid.parse?_text g))

theorem encode_of_unmarked {s : List Char} (h : Unmarked s) : encode s = s := by
  induction s with
  | nil => rfl
  | cons c s ih =>
    have hc : c ≠ quote := by
      rintro rfl
      cases (h quote List.mem_cons_self).symm.trans isMark_quote
    rw [encode, if_neg hc, ih fun d hd => h d (List.mem_cons_of_mem c hd)]

theorem literal_of_unmarked (h : Unmarked s.toList) : "'" ++ s ++ "'" = literal s := by
  apply String.toList_injective
  simp [literal, encode_of_unmarked h, quote]

theorem Written.guid (g : Guid) : Written ("'" ++ g.text ++ "'") [.literal g.text.toList] [] := by
  rw [literal_of_unmarked (unmarked_guid g)]
  exact .fixed (unmarked_guid g)

end Text.Quoted

open Text.Quoted

-- ---------------------------------------------------------------------------
-- Arguments, commands and pipelines
-- ---------------------------------------------------------------------------

namespace Argument

def strings : Argument → List String
  | .string s => [s]
  | .reference r =>
    match r.get? Member.id with
    | some (.string id) => [id]
    | _ => []
  | _ => []

def lookUpBefore : String := "(" ++ Cmdlet.getMachine ++ " -" ++ Parameter.id ++ " "

def lookUpLexemes (r : Record) : List Lexeme :=
  match r.get? Member.id with
  | some (.string id) => code lookUpBefore ++ ([.literal id.toList] ++ code ")")
  | some (.guid id) => code lookUpBefore ++ ([.literal id.text.toList] ++ code ")")
  | _ => code "$null"

def valueLexemes : Argument → List Lexeme
  | .bool b => code (":$" ++ if b then "true" else "false")
  | .string s => code " " ++ [.literal s.toList]
  | .int i => code (" " ++ Text.Numeral.signed i.toInt)
  | .uint n => code (" " ++ Text.Numeral.decimal n.toNat)
  | .guid g => code " " ++ [.literal g.text.toList]
  | .reference r => code " " ++ lookUpLexemes r

def lexemes (name : String) (a : Argument) : List Lexeme := code ("-" ++ name) ++ a.valueLexemes

variable {name : String}

theorem written_lookUp (r : Record) :
    Written (lookUp r) (lookUpLexemes r) (Argument.reference r).strings := by
  have hbefore : Unmarked lookUpBefore.toList := by decide
  have hafter : Written ")" (code ")") [] := .code (by decide)
  have hclose : Closes ")".toList := closes_append (s := [')']) (by decide) nofun
  have hnull : Written "$null" (code "$null") [] := .code (by decide)
  match hid : r.get? Member.id with
  | some (.string id) =>
    have := Written.before hbefore ((Written.string id).append hafter hclose)
    simpa only [lookUp, strings, lookUpLexemes, hid, lookUpBefore, String.append_assoc,
      List.append_nil] using this
  | some (.guid id) =>
    have := Written.before hbefore ((Written.guid id).append hafter hclose)
    have hopen : " '" = " " ++ "'" := rfl
    have hend : "')" = "'" ++ ")" := rfl
    simpa only [lookUp, strings, lookUpLexemes, hid, lookUpBefore, hopen, hend,
      String.append_assoc, List.append_nil] using this
  | none | some .null | some (.bool _) | some (.int _) | some (.uint _) | some (.float _)
  | some (.record _) | some (.list _) =>
    simpa only [lookUp, strings, lookUpLexemes, hid] using hnull

theorem written_script (a : Argument) (hname : Unmarked name.toList) :
    Written (a.script name) (a.lexemes name) a.strings := by
  have hdash : Unmarked ("-" ++ name).toList := by
    rw [String.toList_append]
    exact Unmarked.append (by decide) hname
  have hblank : Unmarked " ".toList := by decide
  have hnumeral {digits : String} (h : Unmarked digits.toList) :
      Written (" " ++ digits) (code (" " ++ digits)) [] := by
    refine .code ?_
    rw [String.toList_append]
    exact hblank.append h
  cases a with
  | string s =>
    rw [script, String.append_assoc]
    exact .before hdash (.before hblank (.string s))
  | int i =>
    rw [script, String.append_assoc]
    exact .before hdash (hnumeral (unmarked_signed _))
  | uint n =>
    rw [script, String.append_assoc]
    exact .before hdash (hnumeral (unmarked_decimal _))
  | bool b =>
    rw [script, String.append_assoc]
    exact .before hdash (.code (by cases b <;> decide))
  | guid g =>
    have hopen : " '" = " " ++ "'" := rfl
    have htext : script name (.guid g) = "-" ++ name ++ (" " ++ ("'" ++ g.text ++ "'")) := by
      simp only [script, hopen, String.append_assoc]
    rw [htext]
    exact .before hdash (.before hblank (.guid g))
  | reference r =>
    rw [script, String.append_assoc]
    exact .before hdash (.before hblank (written_lookUp r))

end Argument

namespace Command

def lexemes (c : Command) : List Lexeme :=
  code c.name ++ c.arguments.flatMap fun a => code " " ++ a.2.lexemes a.1

def strings (c : Command) : List String := c.arguments.flatMap (·.2.strings)

def Named (c : Command) : Prop :=
  Unmarked c.name.toList ∧ ∀ a ∈ c.arguments, Unmarked a.1.toList

instance (c : Command) : Decidable c.Named :=
  inferInstanceAs (Decidable (Unmarked c.name.toList ∧ ∀ a ∈ c.arguments, Unmarked a.1.toList))

def argumentsText (arguments : List (String × Argument)) : String :=
  String.join (arguments.map fun a => " " ++ a.2.script a.1)

theorem closes_argumentsText (arguments : List (String × Argument)) :
    Closes (argumentsText arguments).toList := by
  cases arguments with
  | nil => nofun
  | cons a rest =>
    rw [argumentsText, List.map_cons, String.join_cons, String.append_assoc, String.toList_append]
    exact closes_append (by decide) (by decide)

theorem written_argumentsText {arguments : List (String × Argument)}
    (hnames : ∀ a ∈ arguments, Unmarked a.1.toList) :
    Written (argumentsText arguments)
      (arguments.flatMap fun a => code " " ++ a.2.lexemes a.1)
      (arguments.flatMap (·.2.strings)) := by
  induction arguments with
  | nil => exact .code (by decide)
  | cons a rest ih =>
    have hblank : Unmarked " ".toList := by decide
    have hhead := a.2.written_script (hnames a List.mem_cons_self)
    have hrest := ih fun b hb => hnames b (List.mem_cons_of_mem a hb)
    rw [argumentsText, List.map_cons, String.join_cons, List.flatMap_cons]
    exact (Written.before hblank hhead).append hrest (closes_argumentsText rest)

theorem written_script {c : Command} (hc : c.Named) : Written c.script c.lexemes c.strings :=
  .before hc.1 (written_argumentsText hc.2)

end Command

namespace Pipeline

def lexemes (mode : Mode) (p : Pipeline) : List Lexeme :=
  (code mode.separator).intercalate (p.commands.map (·.lexemes))

def strings (p : Pipeline) : List String := p.commands.flatMap (·.strings)

def Named (p : Pipeline) : Prop := ∀ c ∈ p.commands, c.Named

instance (p : Pipeline) : Decidable p.Named :=
  inferInstanceAs (Decidable (∀ c ∈ p.commands, c.Named))

theorem unmarked_separator (mode : Mode) : Unmarked mode.separator.toList := by
  cases mode <;> decide

theorem closes_separator (mode : Mode) (text : String) :
    Closes (mode.separator ++ text).toList := by
  rw [String.toList_append]
  exact closes_append (unmarked_separator mode) (by cases mode <;> decide)

theorem written_script {p : Pipeline} (hp : p.Named) (mode : Mode) :
    Written (p.script mode) (p.lexemes mode) p.strings := by
  unfold Named at hp
  unfold script lexemes strings
  generalize p.commands = commands at hp
  induction commands with
  | nil =>
    rw [List.map_nil, String.intercalate_nil]
    exact .code (by decide)
  | cons c rest ih =>
    have hc := Command.written_script (hp c List.mem_cons_self)
    have hrest := ih fun d hd => hp d (List.mem_cons_of_mem c hd)
    cases rest with
    | nil => simpa using hc
    | cons d rest =>
      have := hc.append (.before (unmarked_separator mode) hrest) (closes_separator mode _)
      simpa only [List.map_cons, List.flatMap_cons, String.intercalate_cons_cons,
        List.intercalate_cons_cons, String.append_assoc, List.append_assoc] using this

end Pipeline

-- ---------------------------------------------------------------------------
-- Another choice of strings
-- ---------------------------------------------------------------------------

def Text.Quoted.Lexeme.shape : Lexeme → Option Char
  | .code c => some c
  | .literal _ => none

/-- The same but for the string that an argument brings into a script. -/
inductive Argument.Alike : Argument → Argument → Prop
  | same (a : Argument) : Alike a a
  | strings (s t : String) : Alike (.string s) (.string t)
  | identifiers {r r' : Record} {s t : String} (hr : r.get? Member.id = some (.string s))
      (hr' : r'.get? Member.id = some (.string t)) : Alike (.reference r) (.reference r')

structure Command.Alike (c d : Command) : Prop where
  name : c.name = d.name
  arguments : List.Forall₂ (fun a b => a.1 = b.1 ∧ a.2.Alike b.2) c.arguments d.arguments

def Pipeline.Alike (p q : Pipeline) : Prop := List.Forall₂ Command.Alike p.commands q.commands

theorem Argument.Alike.shape_lexemes {a b : Argument} (h : a.Alike b) (name : String) :
    (a.lexemes name).map Lexeme.shape = (b.lexemes name).map Lexeme.shape := by
  cases h with
  | same => rfl
  | strings s t => simp [lexemes, valueLexemes, Lexeme.shape]
  | identifiers hr hr' => simp [lexemes, valueLexemes, lookUpLexemes, hr, hr', Lexeme.shape]

theorem Command.Alike.shape_lexemes {c d : Command} (h : c.Alike d) :
    c.lexemes.map Lexeme.shape = d.lexemes.map Lexeme.shape := by
  have harguments : ∀ {as bs : List (String × Argument)},
      List.Forall₂ (fun a b => a.1 = b.1 ∧ a.2.Alike b.2) as bs →
      (as.flatMap fun a => code " " ++ a.2.lexemes a.1).map Lexeme.shape =
        (bs.flatMap fun b => code " " ++ b.2.lexemes b.1).map Lexeme.shape := by
    intro as bs hab
    induction hab with
    | nil => rfl
    | cons hhead _ ih =>
      rw [List.flatMap_cons, List.flatMap_cons, List.map_append, List.map_append, ih,
        List.map_append, List.map_append, hhead.1, hhead.2.shape_lexemes]
  rw [lexemes, lexemes, List.map_append, List.map_append, harguments h.arguments, h.name]

theorem Pipeline.Alike.shape_lexemes {p q : Pipeline} (h : p.Alike q) (mode : Mode) :
    (p.lexemes mode).map Lexeme.shape = (q.lexemes mode).map Lexeme.shape := by
  unfold Alike at h
  unfold lexemes
  generalize p.commands = cs, q.commands = ds at h
  induction h with
  | nil => rfl
  | cons hhead htail ih =>
    cases htail with
    | nil => simpa using hhead.shape_lexemes
    | cons =>
      simp only [List.map_cons, List.intercalate_cons_cons, List.map_append,
        hhead.shape_lexemes] at ih ⊢
      rw [ih]

/-- A string is read back from its literal exactly if it is straight, and a script is
read as it was meant exactly if all strings in it are. Nothing outside of the literals
depends on these strings. -/
theorem Pipeline.read_as_meant_iff (p : Pipeline) (mode : Mode) (hp : p.Named) :
    (∀ s : String, lexemes? (literal s) = some [.literal s.toList] ↔ Straight s.toList) ∧
      (lexemes? (p.script mode) = some (p.lexemes mode) ↔ ∀ s ∈ p.strings, Straight s.toList) ∧
      ∀ q : Pipeline, p.Alike q →
        (q.lexemes mode).map Lexeme.shape = (p.lexemes mode).map Lexeme.shape := by
  refine ⟨fun s => ?_, (written_script hp mode).lexemes?_iff, fun q hq => ?_⟩
  · simpa only [List.mem_singleton, forall_eq] using (Written.string s).lexemes?_iff
  · exact (hq.shape_lexemes mode).symm

def Pipeline.making (name : String) : Pipeline :=
  .build [.command Cmdlet.newMachine, .argument Parameter.name (.string name)]

/-- A plain quote in a name stays inside of its literal. -/
theorem Pipeline.read_as_meant_iff_making :
    (making "it's").Named ∧ (making "it's").Alike (making "web") ∧
      lexemes? ((making "it's").script .separate) =
        some (code "New-VM -Name " ++ [.literal "it's".toList]) ∧
      ((making "web").lexemes .separate).map Lexeme.shape =
        ((making "it's").lexemes .separate).map Lexeme.shape := by
  have hnamed : (making "it's").Named := by decide
  have halike : (making "it's").Alike (making "web") :=
    .cons ⟨rfl, .cons ⟨rfl, .strings _ _⟩ .nil⟩ .nil
  have hstraight : ∀ s ∈ (making "it's").strings, Straight s.toList := by decide
  obtain ⟨-, hread, hother⟩ := read_as_meant_iff (making "it's") .separate hnamed
  exact ⟨hnamed, halike, (hread.mpr hstraight).trans (by decide +kernel), hother _ halike⟩

/-- Typographic quotes in a name end its literal, and the rest is read as commands. -/
theorem Pipeline.typographic_quotes_escape :
    lexemes? ((making "\u2019; Stop-Computer; \u2018").script .separate) =
      some (code "New-VM -Name " ++ .literal [] :: (code "; Stop-Computer; " ++ [.literal []])) := by
  decide +kernel

end GuestControl
