import GuestControl.Proofs.Pipeline.Lexemes

/-!
# No two pipelines share a script

Two pipelines with proper names have the same script only if they run the same
commands with the same parameters, and each argument of one agrees with the
argument of the other: numbers by their value, identifiers by their text, look-ups
by the identifier that they look up. The proof cuts both scripts alike, piece by
piece: each piece shows where it ends, whatever strings it holds.
-/

namespace GuestControl

namespace Text

variable {P : Char → Bool} {a b r s : List Char}

def StopsAt (P : Char → Bool) (rest : List Char) : Prop := ∀ c ∈ rest.head?, P c = false

theorem StopsAt.takeWhile (h : StopsAt P r) : r.takeWhile P = [] := by
  cases r with
  | nil => rfl
  | cons c r => simp [h c rfl]

theorem append_inj_of_class (ha : ∀ c ∈ a, P c = true) (hb : ∀ c ∈ b, P c = true)
    (hr : StopsAt P r) (hs : StopsAt P s) (h : a ++ r = b ++ s) : a = b ∧ r = s := by
  have htake := congrArg (List.takeWhile P) h
  rw [List.takeWhile_append_of_pos ha, List.takeWhile_append_of_pos hb, hr.takeWhile,
    hs.takeWhile, List.append_nil, List.append_nil] at htake
  subst htake
  exact ⟨rfl, List.append_cancel_left h⟩

namespace Quoted

theorem encode_append_inj (hr : r.head? ≠ some quote) (hs : s.head? ≠ some quote)
    (h : encode a ++ quote :: r = encode b ++ quote :: s) : a = b ∧ r = s := by
  induction a generalizing b with
  | nil =>
    cases b with
    | nil => exact ⟨rfl, (List.cons.inj h).2⟩
    | cons d b =>
      by_cases hd : d = quote
      · simp only [encode, hd, if_true, List.nil_append, List.cons_append, List.cons.injEq,
          true_and] at h
        exact absurd (congrArg List.head? h) hr
      · simp only [encode, hd, if_false, List.nil_append, List.cons_append, List.cons.injEq] at h
        exact absurd h.1.symm hd
  | cons c a ih =>
    cases b with
    | nil =>
      by_cases hc : c = quote
      · simp only [encode, hc, if_true, List.nil_append, List.cons_append, List.cons.injEq,
          true_and] at h
        exact absurd (congrArg List.head? h.symm) hs
      · simp only [encode, hc, if_false, List.nil_append, List.cons_append, List.cons.injEq] at h
        exact h.1.elim
    | cons d b =>
      by_cases hc : c = quote <;> by_cases hd : d = quote <;>
        simp only [encode, hc, hd, if_true, if_false, List.cons_append, List.cons.injEq,
          true_and] at h
      · exact (ih h).imp (congrArg₂ List.cons (hc.trans hd.symm)) id
      · exact absurd h.1.symm hd
      · exact h.1.elim
      · exact (ih h.2).imp (congrArg₂ List.cons h.1) id

theorem literal_append_inj {x y : String} (hr : r.head? ≠ some quote)
    (hs : s.head? ≠ some quote) (h : (literal x).toList ++ r = (literal y).toList ++ s) :
    x = y ∧ r = s := by
  simp only [literal, String.toList_ofList, List.cons_append, List.append_assoc,
    List.nil_append, List.cons.injEq, true_and] at h
  exact (encode_append_inj hr hs h).imp String.toList_injective id

end Quoted

end Text

open Text (StopsAt)

-- ---------------------------------------------------------------------------
-- Names
-- ---------------------------------------------------------------------------

def isNameChar (c : Char) : Bool := c.isAlpha || c == '-'

def IsName (s : String) : Prop :=
  s.toList.head?.any Char.isAlpha = true ∧ ∀ c ∈ s.toList, isNameChar c = true

instance (s : String) : Decidable (IsName s) :=
  decidable_of_iff (s.toList.head?.any Char.isAlpha = true ∧ s.toList.all isNameChar = true)
    (and_congr Iff.rfl List.all_eq_true)

theorem IsName.exists_cons {s : String} (h : IsName s) : ∃ c rest, s.toList = c :: rest := by
  cases hs : s.toList with
  | nil => simp [IsName, hs] at h
  | cons c rest => exact ⟨c, rest, rfl⟩

namespace Cmdlet

def all : List String :=
  [getMachine, startMachine, stopMachine, suspendMachine, resumeMachine, restartMachine,
    removeMachine, newMachine, setMachine, setFirmware, getHost, getCheckpoint, takeCheckpoint,
    restoreCheckpoint, removeCheckpoint, getDisk]

end Cmdlet

namespace Parameter

def all : List String :=
  [id, name, path, passThru, save, turnOff, force, confirm, machine, generation, diskPath,
    switchName, processorCount, memoryStartup, transport, secureBoot]

end Parameter

def Command.ProperlyNamed (c : Command) : Prop := IsName c.name ∧ ∀ a ∈ c.arguments, IsName a.1

instance (c : Command) : Decidable c.ProperlyNamed :=
  inferInstanceAs (Decidable (IsName c.name ∧ ∀ a ∈ c.arguments, IsName a.1))

def Pipeline.ProperlyNamed (p : Pipeline) : Prop := ∀ c ∈ p.commands, c.ProperlyNamed

instance (p : Pipeline) : Decidable p.ProperlyNamed :=
  inferInstanceAs (Decidable (∀ c ∈ p.commands, c.ProperlyNamed))

-- ---------------------------------------------------------------------------
-- Arguments
-- ---------------------------------------------------------------------------

def Record.idText? (r : Record) : Option String :=
  match r.get? Member.id with
  | some (.string id) => some id
  | some (.guid id) => some id.text
  | _ => none

namespace Argument

/-- Equal but for what the shell is not told: the kind of a number, whether a text
is an identifier, and what a record holds beside its identifier. -/
inductive Agrees : Argument → Argument → Prop
  | same (a : Argument) : Agrees a a
  | intUInt {i : Int64} {n : UInt64} : i.toInt = n.toNat → Agrees (.int i) (.uint n)
  | uintInt {i : Int64} {n : UInt64} : i.toInt = n.toNat → Agrees (.uint n) (.int i)
  | guidString (g : Guid) : Agrees (.guid g) (.string g.text)
  | stringGuid (g : Guid) : Agrees (.string g.text) (.guid g)
  | references {r r' : Record} : r.idText? = r'.idText? → Agrees (.reference r) (.reference r')

inductive Form where
  | switch (b : Bool)
  | number (i : Int)
  | literal (s : String)
  | lookUp (id : Option String)
  deriving DecidableEq

def form : Argument → Form
  | .bool b => .switch b
  | .string s => .literal s
  | .int i => .number i.toInt
  | .uint n => .number n.toNat
  | .guid g => .literal g.text
  | .reference r => .lookUp r.idText?

theorem agrees_iff {a b : Argument} : a.Agrees b ↔ a.form = b.form := by
  constructor
  · intro h
    cases h with
    | same => rfl
    | intUInt h | uintInt h => simp only [form, h]
    | guidString | stringGuid => rfl
    | references h => simp only [form, h]
  · intro h
    cases a <;> cases b <;> simp only [form, Form.number.injEq, Form.literal.injEq,
      Form.switch.injEq, Form.lookUp.injEq, reduceCtorEq] at h
    case string.string | bool.bool => exact h ▸ .same _
    case string.guid => exact h ▸ .stringGuid _
    case guid.string => exact h ▸ .guidString _
    case guid.guid => exact Guid.text_injective h ▸ .same _
    case int.int => exact Int64.toInt_inj.mp h ▸ .same _
    case uint.uint => exact UInt64.toNat_inj.mp (Int.ofNat.inj h) ▸ .same _
    case int.uint => exact .intUInt h
    case uint.int => exact .uintInt h.symm
    case reference.reference => exact .references h

-- ---------------------------------------------------------------------------
-- The text of an argument
-- ---------------------------------------------------------------------------

def lookUpText : Option String → String
  | some id => lookUpBefore ++ (Text.Quoted.literal id ++ ")")
  | none => "$null"

def Form.text : Form → String
  | .switch b => ":$" ++ (if b then "true" else "false")
  | .number i => " " ++ Text.Numeral.signed i
  | .literal s => " " ++ Text.Quoted.literal s
  | .lookUp id => " " ++ lookUpText id

theorem lookUp_eq (r : Record) : lookUp r = lookUpText r.idText? := by
  match hid : r.get? Member.id with
  | some (.string id) =>
    simp only [lookUp, Record.idText?, hid, lookUpText, lookUpBefore, String.append_assoc]
  | some (.guid id) =>
    have hopen : " '" = " " ++ "'" := rfl
    have hend : "')" = "'" ++ ")" := rfl
    simp only [lookUp, Record.idText?, hid, lookUpText, lookUpBefore, hopen, hend,
      String.append_assoc, ← Text.Quoted.literal_of_unmarked (Text.Quoted.unmarked_guid id)]
  | none | some .null | some (.bool _) | some (.int _) | some (.uint _) | some (.float _)
  | some (.record _) | some (.list _) =>
    simp only [lookUp, Record.idText?, hid, lookUpText]

theorem script_eq (name : String) (a : Argument) :
    a.script name = "-" ++ (name ++ a.form.text) := by
  have hblank (s : String) : "-" ++ name ++ " " ++ s = "-" ++ (name ++ (" " ++ s)) := by
    simp only [String.append_assoc]
  cases a with
  | string s => exact hblank _
  | int i => exact hblank _
  | uint n => exact hblank _
  | bool b => cases b <;> simp [script, form, Form.text, String.append_assoc]
  | guid g =>
    have hopen : " '" = " " ++ "'" := rfl
    simp only [script, form, Form.text, hopen, String.append_assoc,
      ← Text.Quoted.literal_of_unmarked (Text.Quoted.unmarked_guid g)]
  | reference r =>
    rw [script, lookUp_eq]
    exact hblank _

end Argument

-- ---------------------------------------------------------------------------
-- Where an argument ends
-- ---------------------------------------------------------------------------

/-- What may follow an argument: nothing, a blank or a semicolon. -/
def Ends (rest : List Char) : Prop := ∀ c ∈ rest.head?, c = ' ' ∨ c = ';'

variable {r s : List Char}

theorem Ends.stopsAt {P : Char → Bool} (h : Ends r) (hblank : P ' ' = false)
    (hsemicolon : P ';' = false) : StopsAt P r := by
  intro c hc
  rcases h c hc with rfl | rfl
  · exact hblank
  · exact hsemicolon

theorem Ends.head?_ne_quote (h : Ends r) : r.head? ≠ some Text.Quoted.quote := by
  intro hc
  rcases h _ hc with hc | hc <;> cases hc

def isNumeralChar (c : Char) : Bool := c.isDigit || c == '-'

theorem isNumeralChar_of_mem_signed {i : Int} {c : Char}
    (hc : c ∈ (Text.Numeral.signed i).toList) : isNumeralChar c = true := by
  have hdigit {n : Nat} (h : c ∈ (Text.Numeral.decimal n).toList) : isNumeralChar c = true := by
    rw [Text.Numeral.decimal, String.toList_ofList] at h
    simp [isNumeralChar, Text.Numeral.isDigit_of_mem_decimalChars h]
  cases i with
  | ofNat n => exact hdigit hc
  | negSucc n =>
    rw [Text.Numeral.signed, String.toList_append] at hc
    rcases List.mem_append.mp hc with hc | hc
    · obtain rfl : c = '-' := List.mem_singleton.mp hc
      rfl
    · exact hdigit hc

theorem signed_append_inj {i j : Int} (hr : Ends r) (hs : Ends s)
    (h : (Text.Numeral.signed i).toList ++ r = (Text.Numeral.signed j).toList ++ s) :
    i = j ∧ r = s := by
  obtain ⟨hij, hrs⟩ := Text.append_inj_of_class (P := isNumeralChar)
    (fun c => isNumeralChar_of_mem_signed) (fun c => isNumeralChar_of_mem_signed)
    (hr.stopsAt rfl rfl) (hs.stopsAt rfl rfl) h
  have hread := congrArg Text.Numeral.integer? hij
  rw [Text.Numeral.integer?_signed, Text.Numeral.integer?_signed] at hread
  exact ⟨Option.some.inj hread, hrs⟩

namespace Argument

theorem toList_lookUpText_some (id : String) : (lookUpText (some id)).toList =
    '(' :: ("Get-VM -Id ".toList ++ ((Text.Quoted.literal id).toList ++ [')'])) := by
  have hbefore : lookUpBefore = "(" ++ "Get-VM -Id " := rfl
  simp [lookUpText, hbefore, String.toList_append]

theorem toList_lookUpText_none : (lookUpText none).toList = ['$', 'n', 'u', 'l', 'l'] := rfl

theorem lookUpText_append_inj {x y : Option String}
    (h : (lookUpText x).toList ++ r = (lookUpText y).toList ++ s) : x = y ∧ r = s := by
  have hparen (rest : List Char) : (')' :: rest).head? ≠ some Text.Quoted.quote := by
    simp [Text.Quoted.quote]
  cases x with
  | some x =>
    rw [toList_lookUpText_some] at h
    cases y with
    | some y =>
      rw [toList_lookUpText_some] at h
      simp only [List.cons_append, List.append_assoc, List.cons.injEq, true_and,
        List.append_cancel_left_eq, List.nil_append] at h
      obtain ⟨rfl, hrest⟩ := Text.Quoted.literal_append_inj (hparen r) (hparen s) h
      exact ⟨rfl, (List.cons.inj hrest).2⟩
    | none =>
      rw [toList_lookUpText_none] at h
      simp at h
  | none =>
    rw [toList_lookUpText_none] at h
    cases y with
    | some y =>
      rw [toList_lookUpText_some] at h
      simp at h
    | none =>
      rw [toList_lookUpText_none] at h
      exact ⟨rfl, List.append_cancel_left h⟩

theorem signed_eq_cons (i : Int) :
    ∃ c rest, (Text.Numeral.signed i).toList = c :: rest ∧ isNumeralChar c = true := by
  have hne : (Text.Numeral.signed i).toList ≠ [] := by
    intro h
    have hread := Text.Numeral.integer?_signed i
    rw [h] at hread
    cases hread
  obtain ⟨c, rest, hc⟩ := List.exists_cons_of_ne_nil hne
  exact ⟨c, rest, hc, isNumeralChar_of_mem_signed (hc ▸ List.mem_cons_self)⟩

namespace Form

inductive Kind where
  | switch
  | number
  | literal
  | lookUp
  deriving DecidableEq

def kind : Form → Kind
  | .switch _ => .switch
  | .number _ => .number
  | .literal _ => .literal
  | .lookUp _ => .lookUp

def kindOf : List Char → Kind
  | c :: d :: _ =>
    if c = ':' then .switch
    else if isNumeralChar d then .number
    else if d = Text.Quoted.quote then .literal
    else .lookUp
  | _ => .switch

theorem toList_text_switch (b : Bool) : (switch b).text.toList =
    ':' :: '$' :: (if b then ['t', 'r', 'u', 'e'] else ['f', 'a', 'l', 's', 'e']) := by
  cases b <;> rfl

theorem toList_blank_append (s : String) : (" " ++ s).toList = ' ' :: s.toList := by
  simp [String.toList_append]

theorem kindOf_text (f : Form) (rest : List Char) : kindOf (f.text.toList ++ rest) = f.kind := by
  cases f with
  | switch b => rw [toList_text_switch]; rfl
  | number i =>
    obtain ⟨c, cs, hi, hc⟩ := signed_eq_cons i
    rw [text, toList_blank_append, hi]
    simp [kindOf, hc, kind]
  | literal s =>
    rw [text, toList_blank_append, Text.Quoted.literal, String.toList_ofList]
    rfl
  | lookUp id =>
    rw [text, toList_blank_append]
    cases id with
    | some id => rw [toList_lookUpText_some]; rfl
    | none => rw [toList_lookUpText_none]; rfl

theorem text_append_inj {f g : Form} (hr : Ends r) (hs : Ends s)
    (h : f.text.toList ++ r = g.text.toList ++ s) : f = g ∧ r = s := by
  have hkind : f.kind = g.kind := by rw [← kindOf_text f r, h, kindOf_text]
  cases f <;> cases g <;> try cases hkind
  case switch.switch b b' =>
    cases b <;> cases b' <;> simp [toList_text_switch] at h ⊢
    · exact h
    · exact h
  case number.number i j =>
    simp only [text, toList_blank_append, List.cons_append, List.cons.injEq, true_and] at h
    exact (signed_append_inj hr hs h).imp (congrArg number) id
  case literal.literal x y =>
    simp only [text, toList_blank_append, List.cons_append, List.cons.injEq, true_and] at h
    exact (Text.Quoted.literal_append_inj hr.head?_ne_quote hs.head?_ne_quote h).imp
      (congrArg literal) id
  case lookUp.lookUp x y =>
    simp only [text, toList_blank_append, List.cons_append, List.cons.injEq, true_and] at h
    exact (lookUpText_append_inj h).imp (congrArg lookUp) id

theorem stopsAt_text (f : Form) (rest : List Char) :
    StopsAt isNameChar (f.text.toList ++ rest) := by
  intro c hc
  cases f with
  | switch b =>
    rw [toList_text_switch] at hc
    obtain rfl : ':' = c := Option.some.inj hc
    rfl
  | number i | literal s | lookUp id =>
    rw [text, toList_blank_append] at hc
    obtain rfl : ' ' = c := Option.some.inj hc
    rfl

end Form

end Argument

-- ---------------------------------------------------------------------------
-- Commands and pipelines
-- ---------------------------------------------------------------------------

structure Command.Agrees (c d : Command) : Prop where
  name : c.name = d.name
  arguments : List.Forall₂ (fun a b => a.1 = b.1 ∧ a.2.Agrees b.2) c.arguments d.arguments

def Pipeline.Agrees (p q : Pipeline) : Prop := List.Forall₂ Command.Agrees p.commands q.commands

/-- What may follow a command: nothing, or a separator and more. -/
def Mode.Follows (mode : Mode) (rest : List Char) : Prop :=
  rest = [] ∨ ∃ more, rest = mode.separator.toList ++ more

namespace Mode.Follows

variable {mode : Mode}

theorem ends (h : mode.Follows r) : Ends r := by
  intro c hc
  obtain rfl | ⟨more, rfl⟩ := h
  · cases hc
  · cases mode with
    | separate => exact .inr (Option.some.inj hc).symm
    | piped => exact .inl (Option.some.inj hc).symm

theorem ne_argument (h : mode.Follows r) (more : List Char) : r ≠ ' ' :: '-' :: more := by
  rintro rfl
  obtain h | ⟨more, h⟩ := h
  · cases h
  · cases mode with
    | separate => cases h
    | piped => cases h

end Mode.Follows

namespace Command

variable {as bs : List (String × Argument)} {c d : Command} {mode : Mode}

theorem toList_argumentsText_cons (a : String × Argument) (as : List (String × Argument)) :
    (argumentsText (a :: as)).toList =
      ' ' :: '-' :: (a.1.toList ++ (a.2.form.text.toList ++ (argumentsText as).toList)) := by
  simp [argumentsText, String.join_cons, String.toList_append, Argument.script_eq]

theorem ends_argumentsText (as : List (String × Argument)) (h : mode.Follows r) :
    Ends ((argumentsText as).toList ++ r) := by
  cases as with
  | nil => exact h.ends
  | cons a as =>
    rw [toList_argumentsText_cons]
    intro c hc
    exact .inl (Option.some.inj hc).symm

theorem argumentsText_append_inj (ha : ∀ a ∈ as, IsName a.1) (hb : ∀ b ∈ bs, IsName b.1)
    (hr : mode.Follows r) (hs : mode.Follows s)
    (h : (argumentsText as).toList ++ r = (argumentsText bs).toList ++ s) :
    List.Forall₂ (fun a b => a.1 = b.1 ∧ a.2.Agrees b.2) as bs ∧ r = s := by
  induction as generalizing bs with
  | nil =>
    cases bs with
    | nil => exact ⟨.nil, h⟩
    | cons b bs =>
      rw [toList_argumentsText_cons] at h
      exact absurd h (hr.ne_argument _)
  | cons a as ih =>
    cases bs with
    | nil =>
      rw [toList_argumentsText_cons] at h
      exact absurd h.symm (hs.ne_argument _)
    | cons b bs =>
      simp only [toList_argumentsText_cons, List.cons_append, List.append_assoc, List.cons.injEq,
        true_and] at h
      obtain ⟨hname, h⟩ := Text.append_inj_of_class (ha a List.mem_cons_self).2
        (hb b List.mem_cons_self).2 (Argument.Form.stopsAt_text _ _)
        (Argument.Form.stopsAt_text _ _) h
      obtain ⟨hform, h⟩ := Argument.Form.text_append_inj (ends_argumentsText as hr)
        (ends_argumentsText bs hs) h
      obtain ⟨hrest, hend⟩ := ih (fun x hx => ha x (List.mem_cons_of_mem a hx))
        (fun x hx => hb x (List.mem_cons_of_mem b hx)) h
      exact ⟨.cons ⟨String.toList_injective hname, Argument.agrees_iff.mpr hform⟩ hrest, hend⟩

theorem script_append_inj (hc : c.ProperlyNamed) (hd : d.ProperlyNamed) (hr : mode.Follows r)
    (hs : mode.Follows s) (h : c.script.toList ++ r = d.script.toList ++ s) :
    c.Agrees d ∧ r = s := by
  have htext (c : Command) :
      c.script.toList = c.name.toList ++ (argumentsText c.arguments).toList :=
    String.toList_append
  rw [htext, htext, List.append_assoc, List.append_assoc] at h
  obtain ⟨hname, h⟩ := Text.append_inj_of_class hc.1.2 hd.1.2
    ((ends_argumentsText c.arguments hr).stopsAt rfl rfl)
    ((ends_argumentsText d.arguments hs).stopsAt rfl rfl) h
  obtain ⟨harguments, hend⟩ := argumentsText_append_inj hc.2 hd.2 hr hs h
  exact ⟨⟨String.toList_injective hname, harguments⟩, hend⟩

theorem Agrees.script_eq (h : c.Agrees d) : c.script = d.script := by
  obtain ⟨hname, harguments⟩ := h
  have htext : argumentsText c.arguments = argumentsText d.arguments := by
    generalize c.arguments = as, d.arguments = bs at harguments
    induction harguments with
    | nil => rfl
    | cons hhead _ ih =>
      apply String.toList_injective
      rw [toList_argumentsText_cons, toList_argumentsText_cons, hhead.1,
        Argument.agrees_iff.mp hhead.2, ih]
  rw [script, script, hname]
  exact congrArg (d.name ++ ·) htext

theorem script_ne_empty (hc : c.ProperlyNamed) : c.script.toList ≠ [] := by
  obtain ⟨x, rest, hx⟩ := hc.1.exists_cons
  rw [script, String.toList_append, hx]
  exact List.cons_ne_nil _ _

end Command

namespace Pipeline

variable {cs ds : List Command} {mode : Mode}

def tail (mode : Mode) (cs : List Command) : List Char :=
  cs.flatMap fun c => mode.separator.toList ++ c.script.toList

theorem toList_intercalate (mode : Mode) (c : Command) (cs : List Command) :
    (mode.separator.intercalate ((c :: cs).map (·.script))).toList =
      c.script.toList ++ tail mode cs := by
  induction cs generalizing c with
  | nil => simp [tail]
  | cons d cs ih =>
    rw [List.map_cons, List.map_cons, String.intercalate_cons_cons, ← List.map_cons,
      String.toList_append, String.toList_append, ih]
    simp [tail]

theorem follows_tail (mode : Mode) (cs : List Command) : mode.Follows (tail mode cs) := by
  cases cs with
  | nil => exact .inl rfl
  | cons c cs => exact .inr ⟨_, by rw [tail, List.flatMap_cons, List.append_assoc]⟩

theorem agrees_of_tail_eq (hc : ∀ c ∈ cs, c.ProperlyNamed) (hd : ∀ d ∈ ds, d.ProperlyNamed)
    (h : tail mode cs = tail mode ds) : List.Forall₂ Command.Agrees cs ds := by
  have hne (c : Command) (cs : List Command) : tail mode (c :: cs) ≠ [] := by
    cases mode <;> simp [tail, Mode.separator]
  induction cs generalizing ds with
  | nil =>
    cases ds with
    | nil => exact .nil
    | cons d ds => exact absurd h.symm (hne d ds)
  | cons c cs ih =>
    cases ds with
    | nil => exact absurd h (hne c cs)
    | cons d ds =>
      simp only [tail, List.flatMap_cons, List.append_assoc, List.append_cancel_left_eq] at h
      obtain ⟨hhead, h⟩ := Command.script_append_inj (hc c List.mem_cons_self)
        (hd d List.mem_cons_self) (follows_tail mode cs) (follows_tail mode ds) h
      exact .cons hhead (ih (fun x hx => hc x (List.mem_cons_of_mem c hx))
        (fun x hx => hd x (List.mem_cons_of_mem d hx)) h)

theorem agrees_of_script_eq {p q : Pipeline} (hp : p.ProperlyNamed) (hq : q.ProperlyNamed)
    (h : p.script mode = q.script mode) : p.Agrees q := by
  unfold ProperlyNamed at hp hq
  unfold script at h
  unfold Agrees
  generalize p.commands = cs, q.commands = ds at hp hq h
  have h := congrArg String.toList h
  cases cs with
  | nil =>
    cases ds with
    | nil => exact .nil
    | cons d ds =>
      rw [toList_intercalate] at h
      exact absurd (List.append_eq_nil_iff.mp h.symm).1
        (Command.script_ne_empty (hq d List.mem_cons_self))
  | cons c cs =>
    cases ds with
    | nil =>
      rw [toList_intercalate] at h
      exact absurd (List.append_eq_nil_iff.mp h).1
        (Command.script_ne_empty (hp c List.mem_cons_self))
    | cons d ds =>
      rw [toList_intercalate, toList_intercalate] at h
      obtain ⟨hhead, h⟩ := Command.script_append_inj (hp c List.mem_cons_self)
        (hq d List.mem_cons_self) (follows_tail mode cs) (follows_tail mode ds) h
      exact .cons hhead (agrees_of_tail_eq (fun x hx => hp x (List.mem_cons_of_mem c hx))
        (fun x hx => hq x (List.mem_cons_of_mem d hx)) h)

theorem Agrees.script_eq {p q : Pipeline} (h : p.Agrees q) (mode : Mode) :
    p.script mode = q.script mode := by
  have hscripts : p.commands.map (·.script) = q.commands.map (·.script) := by
    unfold Agrees at h
    generalize p.commands = cs, q.commands = ds at h
    induction h with
    | nil => rfl
    | cons hhead _ ih => rw [List.map_cons, List.map_cons, hhead.script_eq, ih]
  rw [script, script, hscripts]

/-- The script of a pipeline tells its commands, its parameters and, as far as the
shell is concerned, its arguments. The names of the shell's machine commands and of
their parameters are proper names. -/
theorem script_eq_iff_agrees (p q : Pipeline) (mode : Mode) (hp : p.ProperlyNamed)
    (hq : q.ProperlyNamed) :
    (p.script mode = q.script mode ↔ p.Agrees q) ∧
      ∀ name ∈ Cmdlet.all ++ Parameter.all, IsName name :=
  ⟨⟨agrees_of_script_eq hp hq, fun h => h.script_eq mode⟩, by decide⟩

def makingFrom (name disk : String) : Pipeline :=
  .build [.command Cmdlet.newMachine, .argument Parameter.name (.string name),
    .argument Parameter.diskPath (.string disk)]

/-- A name that reads like the rest of a command is no such rest. -/
theorem script_eq_iff_agrees_forged :
    (making "a' -VHDPath 'b").ProperlyNamed ∧ (makingFrom "a" "b").ProperlyNamed ∧
      (making "a' -VHDPath 'b").script .separate ≠ (makingFrom "a" "b").script .separate := by
  have hp : (making "a' -VHDPath 'b").ProperlyNamed := by decide
  have hq : (makingFrom "a" "b").ProperlyNamed := by decide
  refine ⟨hp, hq, fun h => ?_⟩
  have hagree := (script_eq_iff_agrees _ _ .separate hp hq).1.mp h
  obtain ⟨⟨-, harguments⟩, -⟩ := List.forall₂_cons.mp hagree
  cases harguments.length_eq

end Pipeline

end GuestControl
