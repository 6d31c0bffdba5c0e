import GuestControl.Machine.Basic
import GuestControl.Proofs.Record.Numbers
import Mathlib.Data.List.Forall2

/-!
# Numbers, identifiers and truth values as text

The shell may print a member as a value of its own kind or as text. Whatever mixture of
the two it chooses, apart from the state of a machine, the same object is read, or the
same field is told with the same expectation.
-/

namespace GuestControl

open Text (Padded)
open Text.Numeral (Spells)

-- ---------------------------------------------------------------------------
-- Numerals and identifiers
-- ---------------------------------------------------------------------------

namespace Text.Numeral

variable {s : List Char} {c : Char} {i : Int}

theorem hasMinus_signed : HasMinus (signed i).toList ↔ i < 0 := by
  cases i with
  | ofNat n =>
    obtain ⟨c, rest, hchars, hc⟩ := (isDecimal_decimalChars n).head
    have hhead : c ≠ '-' := by
      rintro rfl
      exact absurd hc (by decide)
    simp [HasMinus, signed, decimal, hchars, hhead]
  | negSucc n => simp [HasMinus, signed, Int.negSucc_lt_zero]

theorem natural?_signed (i : Int) : natural? (signed i).toList = Word.nat? i := by
  refine Option.ext fun n => ?_
  rw [natural?_eq_some, Word.nat?_eq_some, hasMinus_signed]
  constructor
  · rintro ⟨hspells, -⟩
    exact (spells_signed i).unique hspells
  · rintro rfl
    exact ⟨spells_signed _, by omega⟩

theorem length_signed {k : Nat} (h : i.natAbs < 10 ^ (k + 1)) :
    (signed i).toList.length ≤ k + 2 := by
  cases i with
  | ofNat n =>
    have := length_decimalChars (n := n) h
    simp only [signed, decimal, String.toList_ofList]
    omega
  | negSucc n =>
    have := length_decimalChars (n := n + 1) h
    simp only [signed, decimal, String.toList_append, String.toList_ofList, List.length_append]
    have hsign : "-".toList.length = 1 := rfl
    omega

theorem Spells.ne_nil (h : Spells s i) : s ≠ [] := by
  cases h with
  | plain h => exact h.ne_nil
  | plus | minus => exact List.cons_ne_nil _ _

theorem Spells.isDigit_of_mem_tail (h : Spells s i) (hc : c ∈ s.tail) : c.isDigit = true := by
  cases h with
  | plain h => exact h.digits c (List.mem_of_mem_tail hc)
  | plus h | minus h => exact h.digits c hc

end Text.Numeral

namespace Guid

/-- An identifier is no numeral: there are hyphens in it. -/
theorem not_spells (g : Guid) (i : Int) : ¬ Spells g.text.toList i := by
  intro h
  have hfirst : g.chars.take 8 ≠ [] := by simp [← List.length_eq_zero_iff, length_chars]
  have htext : g.text.toList =
      g.chars.take 8 ++ '-' :: hyphenate [4, 4, 4, 12] (g.chars.drop 8) := by
    rw [text, String.toList_ofList]
    rfl
  have hhyphen : '-' ∈ g.text.toList.tail := by
    rw [htext, List.tail_append_of_ne_nil hfirst]
    exact List.mem_append_right _ List.mem_cons_self
  exact absurd (h.isDigit_of_mem_tail hhyphen) (by decide)

theorem parseChars?_of_short {s : List Char} (h : s.length < 32) : parseChars? s = none := by
  simp only [parseChars?]
  rw [if_neg (by omega), if_neg (by omega), if_neg (by omega), if_neg (by omega)]

theorem not_blank_text (g : Guid) : ∀ c ∈ g.text.toList, Text.isBlank c = false :=
  fun c hc => (isWordy_of_parseChars? (parse?_text g) c hc).not_blank

end Guid

-- ---------------------------------------------------------------------------
-- Values and their text
-- ---------------------------------------------------------------------------

namespace Value

def spelling? : Value → Option String
  | .int i => some (Text.Numeral.signed i.toInt)
  | .uint n => some (Text.Numeral.decimal n.toNat)
  | .guid g => some g.text
  | .bool b => some (if b then "True" else "False")
  | _ => none

/-- A value is kept or replaced by its text, with blanks around it unless the member is
one of those that are read as text. The state is kept. -/
inductive Respelled (texts : List String) (name : String) : Value → Value → Prop
  | kept {v : Value} : Respelled texts name v v
  | spelled {v : Value} {t : String} : name ≠ "State" → v.spelling? = some t →
      Respelled texts name v (.string t)
  | padded {v : Value} {t s : String} : name ≠ "State" → name ∉ texts → v.spelling? = some t →
      Padded t.toList s.toList → Respelled texts name v (.string s)

/-- Both convert to the same, or the same was expected of both. -/
inductive Alike {α : Type} : Converted α → Converted α → Prop
  | ok {a : α} : Alike (.ok a) (.ok a)
  | error {m m' : Mismatch} : m.expected = m'.expected → Alike (.error m) (.error m')

variable {α β : Type} {texts : List String} {name : String} {v v' : Value} {s t : String}
  {x y : Converted α}

theorem Alike.refl (x : Converted α) : Alike x x := by
  cases x with
  | ok a => exact .ok
  | error m => exact .error rfl

theorem Alike.map (h : Alike x y) (f : α → β) : Alike (x.map f) (y.map f) := by
  cases h with
  | ok => exact .ok
  | error h => exact .error h

theorem expecting_alike (expected : String) (v v' : Value) (a? : Option α) :
    Alike (v.expecting expected a?) (v'.expecting expected a?) := by
  cases a? with
  | none => exact .error rfl
  | some a => exact .ok

theorem not_blank_spelling (h : v.spelling? = some t) :
    ∀ c ∈ t.toList, Text.isBlank c = false := by
  cases v with
  | int i =>
    obtain rfl := Option.some.inj h
    exact (Text.Numeral.spells_signed i.toInt).not_blank
  | uint n =>
    obtain rfl := Option.some.inj h
    simpa [Text.Numeral.decimal] using (Text.Numeral.isDecimal_decimalChars n.toNat).not_blank
  | guid g =>
    obtain rfl := Option.some.inj h
    exact g.not_blank_text
  | bool b =>
    obtain rfl := Option.some.inj h
    have hall : (if b then "True" else "False").toList.all (!Text.isBlank ·) = true := by
      cases b with
      | _ => decide
    simpa using hall
  | _ => cases h

theorem unsigned?_spelling (h : v.spelling? = some t) :
    v.unsigned? = Text.Numeral.natural? t.toList := by
  cases v with
  | int i =>
    obtain rfl := Option.some.inj h
    exact (Text.Numeral.natural?_signed i.toInt).symm
  | uint n =>
    obtain rfl := Option.some.inj h
    exact (Text.Numeral.natural?_signed n.toNat).symm
  | guid g =>
    obtain rfl := Option.some.inj h
    refine (Option.eq_none_iff_forall_ne_some.mpr fun n hn => ?_).symm
    exact g.not_spells n (Text.Numeral.natural?_eq_some.mp hn).1
  | bool b =>
    obtain rfl := Option.some.inj h
    cases b with
    | _ => decide
  | _ => cases h

/-- Text that stands for a number or a truth value cannot be taken for an identifier. -/
theorem spelling_short (h : v.spelling? = some t) (hguid : ∀ g, v ≠ .guid g) :
    t.toList ≠ [] ∧ t.toList.length < 32 := by
  cases v with
  | int i =>
    obtain rfl := Option.some.inj h
    have hlow := i.le_toInt
    have hhigh := i.toInt_lt
    have hlength : (Text.Numeral.signed i.toInt).toList.length ≤ 21 :=
      Text.Numeral.length_signed (k := 19) (by omega)
    exact ⟨(Text.Numeral.spells_signed i.toInt).ne_nil, by omega⟩
  | uint n =>
    obtain rfl := Option.some.inj h
    have hhigh := n.toNat_lt
    have hlength : (Text.Numeral.signed n.toNat).toList.length ≤ 21 :=
      Text.Numeral.length_signed (k := 19) (by omega)
    exact ⟨(Text.Numeral.spells_signed n.toNat).ne_nil, Nat.lt_of_le_of_lt hlength (by decide)⟩
  | guid g => exact absurd rfl (hguid g)
  | bool b =>
    obtain rfl := Option.some.inj h
    cases b with
    | _ => decide
  | _ => cases h

theorem toUInt64_alike (h : v.spelling? = some t) (hs : Padded t.toList s.toList) :
    Alike v.toUInt64 (string s).toUInt64 := by
  have hsame : v.unsigned? = (string s).unsigned? := by
    rw [unsigned?_spelling h, unsigned?, Text.trimChars_of_padded hs (not_blank_spelling h)]
  rw [toUInt64_eq, toUInt64_eq, hsame]
  exact expecting_alike ..

theorem toUInt32_alike (h : v.spelling? = some t) (hs : Padded t.toList s.toList) :
    Alike v.toUInt32 (string s).toUInt32 := by
  have hwide := toUInt64_alike h hs
  unfold toUInt32
  generalize v.toUInt64 = x at hwide
  generalize (string s).toUInt64 = y at hwide
  cases hwide with
  | ok => exact expecting_alike ..
  | error h => exact .error h

theorem toGuid_alike (h : v.spelling? = some t) (hs : Padded t.toList s.toList) :
    Alike v.toGuid (string s).toGuid := by
  have hread : (string s).toGuid = if t.toList.isEmpty then .ok .nil
      else (string s).expecting "guid" (Guid.parseChars? t.toList) := by
    simp only [toGuid, Text.trimChars_of_padded hs (not_blank_spelling h)]
  rw [hread]
  by_cases hguid : ∃ g, v = .guid g
  · obtain ⟨g, rfl⟩ := hguid
    obtain rfl := Option.some.inj h
    have hparse : Guid.parseChars? g.text.toList = some g := g.parse?_text
    have hne : g.text.toList ≠ [] := by
      intro hnil
      rw [hnil] at hparse
      cases hparse
    rw [if_neg (by simpa using hne), hparse]
    exact .ok
  · obtain ⟨hne, hshort⟩ := spelling_short h fun g hv => hguid ⟨g, hv⟩
    rw [if_neg (by simpa using hne), Guid.parseChars?_of_short hshort]
    cases v with
    | guid g => exact absurd ⟨g, rfl⟩ hguid
    | int _ | uint _ | bool _ => exact .error rfl
    | _ => cases h

theorem toText_spelling (h : v.spelling? = some t) : v.toText = .ok t := by
  cases v with
  | int i | uint n | guid g | bool b =>
    obtain rfl := Option.some.inj h
    rfl
  | _ => cases h

theorem Respelled.isNull_eq (h : Respelled texts name v v') : v.isNull = v'.isNull := by
  cases h with
  | kept => rfl
  | spelled _ ht | padded _ _ ht _ =>
    cases v with
    | null => cases ht
    | _ => rfl

end Value

-- ---------------------------------------------------------------------------
-- Records
-- ---------------------------------------------------------------------------

open Value (Alike)
open Schema (Field given)

variable {σ α : Type} {texts : List String} {name : String} {r r' : Record}

def Record.Respelled (texts : List String) (r r' : Record) : Prop :=
  List.Forall₂ (fun p q => p.1 = q.1 ∧ Value.Respelled texts p.1 p.2 q.2) r.members r'.members

theorem Record.Respelled.get? (h : r.Respelled texts r') (name : String) :
    r.get? name = none ∧ r'.get? name = none ∨
      ∃ v v', r.get? name = some v ∧ r'.get? name = some v' ∧ Value.Respelled texts name v v' := by
  unfold Record.Respelled at h
  unfold Record.get?
  generalize r.members = members at h ⊢
  generalize r'.members = members' at h ⊢
  induction h with
  | nil => exact .inl ⟨rfl, rfl⟩
  | @cons p q _ _ hpq _ ih =>
    obtain ⟨hname, hvalue⟩ := hpq
    simp only [SortedMap.find?, ← hname]
    split
    · rename_i h
      subst h
      exact .inr ⟨_, _, rfl, rfl, hvalue⟩
    · exact ih

theorem Record.Respelled.given (h : r.Respelled texts r') (name : String) :
    given r name = none ∧ given r' name = none ∨
      ∃ v v', given r name = some v ∧ given r' name = some v' ∧
        Value.Respelled texts name v v' := by
  unfold Schema.given
  obtain ⟨hr, hr'⟩ | ⟨v, v', hr, hr', hv⟩ := h.get? name
  · exact .inl ⟨by rw [hr]; rfl, by rw [hr']; rfl⟩
  · rw [hr, hr']
    cases hnull : v.isNull with
    | true =>
      have hnull' : v'.isNull = true := hv.isNull_eq ▸ hnull
      exact .inl ⟨by simp [hnull], by simp [hnull']⟩
    | false =>
      have hnull' : v'.isNull = false := hv.isNull_eq ▸ hnull
      exact .inr ⟨v, v', by simp [hnull], by simp [hnull'], hv⟩

namespace Schema

/-- Equal objects are read, or the same field is told and the same was expected of it. -/
inductive SameReading : Except Error σ → Except Error σ → Prop
  | read {x : σ} : SameReading (.ok x) (.ok x)
  | failed {field expected found found' : String} :
      SameReading (.error (.materialization field expected found))
        (.error (.materialization field expected found'))

def Field.Tolerates (texts : List String) (f : Field σ) : Prop :=
  ∀ x v v', Value.Respelled texts f.name v v' → Alike (f.put x v) (f.put x v')

theorem tolerates_of {convert : Value → Value.Converted α} (set : σ → α → σ)
    (h : ∀ v v', Value.Respelled texts name v v' → Alike (convert v) (convert v')) :
    (Field.of name convert set).Tolerates texts := fun x v v' hv => (h v v' hv).map (set x)

theorem readInto_respelled (h : r.Respelled texts r') {fields : List (Field σ)}
    (hfields : ∀ f ∈ fields, f.Tolerates texts) (x : σ) :
    SameReading (readInto r x fields) (readInto r' x fields) := by
  induction fields generalizing x with
  | nil => exact .read
  | cons f fields ih =>
    obtain ⟨hf, hfields⟩ := List.forall_mem_cons.mp hfields
    obtain ⟨hr, hr'⟩ | ⟨v, v', hr, hr', hv⟩ := h.given f.name
    · simp only [readInto, hr, hr']
      exact ih hfields x
    · simp only [readInto, hr, hr']
      have hput := hf x v v' hv
      generalize f.put x v = y at hput
      generalize f.put x v' = y' at hput
      cases hput with
      | ok => exact ih hfields _
      | error hexpected =>
        simp only [Error.ofMismatch, hexpected]
        exact .failed

end Schema

-- ---------------------------------------------------------------------------
-- The three kinds of objects
-- ---------------------------------------------------------------------------

open Schema (SameReading tolerates_of readInto_respelled)

section
variable {v v' : Value}

theorem Value.Respelled.toUInt64 (h : Respelled texts name v v') :
    Alike v.toUInt64 v'.toUInt64 := by
  cases h with
  | kept => exact .refl _
  | spelled _ ht => exact toUInt64_alike ht (Text.padded_self _)
  | padded _ _ ht hs => exact toUInt64_alike ht hs

theorem Value.Respelled.toUInt32 (h : Respelled texts name v v') :
    Alike v.toUInt32 v'.toUInt32 := by
  cases h with
  | kept => exact .refl _
  | spelled _ ht => exact toUInt32_alike ht (Text.padded_self _)
  | padded _ _ ht hs => exact toUInt32_alike ht hs

theorem Value.Respelled.toGuid (h : Respelled texts name v v') : Alike v.toGuid v'.toGuid := by
  cases h with
  | kept => exact .refl _
  | spelled _ ht => exact toGuid_alike ht (Text.padded_self _)
  | padded _ _ ht hs => exact toGuid_alike ht hs

theorem Value.Respelled.toOptionalGuid (h : Respelled texts name v v') :
    Alike v.toOptionalGuid v'.toOptionalGuid := h.toGuid.map _

theorem Value.Respelled.toText (hname : name ∈ texts) (h : Respelled texts name v v') :
    Alike v.toText v'.toText := by
  cases h with
  | kept => exact .refl _
  | spelled _ ht =>
    rw [toText_spelling ht]
    exact .ok
  | padded _ hpadded _ _ => exact absurd hname hpadded

theorem Value.Respelled.state (h : Respelled texts "State" v v') :
    Alike (Machine.State.ofValue v) (Machine.State.ofValue v') := by
  cases h with
  | kept => exact .refl _
  | spelled hstate | padded hstate => exact absurd rfl hstate

end

def Machine.textMembers : List String := ["Name", "ParentCheckpointName", "Path", "ComputerName"]

def Checkpoint.textMembers : List String := ["Name", "ParentCheckpointName"]

def Host.textMembers : List String := ["ComputerName", "VirtualMachinePath", "VirtualHardDiskPath"]

theorem Machine.tolerates : ∀ f ∈ schema.fields, f.Tolerates textMembers := by
  simp only [schema, List.forall_mem_cons]
  exact ⟨tolerates_of _ fun _ _ h => h.toGuid,
    tolerates_of _ fun _ _ h => h.toText (by decide),
    tolerates_of _ fun _ _ h => h.state,
    tolerates_of _ fun _ _ h => h.toUInt32,
    tolerates_of _ fun _ _ h => h.toUInt64,
    tolerates_of _ fun _ _ h => h.toUInt64,
    tolerates_of _ fun _ _ h => h.toUInt64,
    tolerates_of _ fun _ _ h => h.toOptionalGuid,
    tolerates_of _ fun _ _ h => h.toText (by decide),
    tolerates_of _ fun _ _ h => h.toUInt32,
    tolerates_of _ fun _ _ h => h.toText (by decide),
    tolerates_of _ fun _ _ h => h.toText (by decide), nofun⟩

theorem Checkpoint.tolerates : ∀ f ∈ schema.fields, f.Tolerates textMembers := by
  simp only [schema, List.forall_mem_cons]
  exact ⟨tolerates_of _ fun _ _ h => h.toGuid,
    tolerates_of _ fun _ _ h => h.toText (by decide),
    tolerates_of _ fun _ _ h => h.toOptionalGuid,
    tolerates_of _ fun _ _ h => h.toText (by decide), nofun⟩

theorem Host.tolerates : ∀ f ∈ schema.fields, f.Tolerates textMembers := by
  simp only [schema, List.forall_mem_cons]
  exact ⟨tolerates_of _ fun _ _ h => h.toText (by decide),
    tolerates_of _ fun _ _ h => h.toText (by decide),
    tolerates_of _ fun _ _ h => h.toText (by decide),
    tolerates_of _ fun _ _ h => h.toUInt32,
    tolerates_of _ fun _ _ h => h.toUInt64, nofun⟩

/-- Machines, checkpoints and hosts are read alike whether their members are of their own
kinds or spelled as text. -/
theorem respelled_reads_alike (r r' : Record) :
    (r.Respelled Machine.textMembers r' →
      SameReading (Machine.schema.read r) (Machine.schema.read r')) ∧
    (r.Respelled Checkpoint.textMembers r' →
      SameReading (Checkpoint.schema.read r) (Checkpoint.schema.read r')) ∧
    (r.Respelled Host.textMembers r' → SameReading (Host.schema.read r) (Host.schema.read r')) :=
  ⟨fun h => readInto_respelled h Machine.tolerates _,
    fun h => readInto_respelled h Checkpoint.tolerates _,
    fun h => readInto_respelled h Host.tolerates _⟩

/-- A machine and a host whose processors are too many, with some members as text. -/
theorem respelled_reads_alike_mixed :
    SameReading
      (Machine.schema.read ⟨[("Id", .guid ⟨List.replicate 32 7, rfl⟩), ("Name", .int (-7)),
        ("ProcessorCount", .uint 2), ("State", .int 2)]⟩)
      (Machine.schema.read ⟨[("Id", .string "\t77777777-7777-7777-7777-777777777777\u2003"),
        ("Name", .string "-7"), ("ProcessorCount", .string "2\u3000"), ("State", .int 2)]⟩) ∧
    SameReading
      (Host.schema.read ⟨[("ComputerName", .bool true),
        ("LogicalProcessorCount", .int 4294967296)]⟩)
      (Host.schema.read ⟨[("ComputerName", .string "True"),
        ("LogicalProcessorCount", .string " 4294967296")]⟩) := by
  constructor
  · have hid := Text.padded_of_all (t := "77777777-7777-7777-7777-777777777777".toList)
      ['\t'] ['\u2003'] rfl rfl
    have hcount := Text.padded_of_all (t := "2".toList) [] ['\u3000'] rfl rfl
    refine (respelled_reads_alike _ _).1 (.cons ⟨rfl, ?_⟩ <| .cons ⟨rfl, ?_⟩ <|
      .cons ⟨rfl, ?_⟩ <| .cons ⟨rfl, .kept⟩ .nil)
    · exact .padded (by decide) (by decide) rfl hid
    · exact .spelled (by decide) rfl
    · exact .padded (by decide) (by decide) rfl hcount
  · have hcount := Text.padded_of_all (t := "4294967296".toList) [' '] [] rfl rfl
    refine (respelled_reads_alike _ _).2.2 (.cons ⟨rfl, ?_⟩ <| .cons ⟨rfl, ?_⟩ .nil)
    · exact .spelled (by decide) rfl
    · exact .padded (by decide) (by decide) rfl hcount

end GuestControl
