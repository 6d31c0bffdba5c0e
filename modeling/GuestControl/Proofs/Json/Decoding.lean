import GuestControl.Json.Decoder
import GuestControl.Proofs.Json.Integers
import Mathlib.Data.List.Pairwise

/-!
# Decoding structures

A structure is read from the members of an object in the order of the text. What comes of
it does not depend on that order: an object is read exactly if its known members come
once, are read by their decoders and include the required ones (`Fit`), and then each part
of the structure is what its own member was decoded to (`Given`). The decoders of scalars
accept the documents of their kind and no others.
-/

namespace GuestControl.Json

abbrev Docs := List (Option String × Doc)

namespace Decoder

variable {σ α : Type} {fields : List (Field σ)} {f g : Field σ} {room : Nat} {seen : List String}
  {x y z : σ} {a : α} {key name : String} {decoder : Decoder α} {set : σ → α → σ}
  {d : Doc} {docs : Docs}

/-- From the fields `seen` and the structure `x` on, reading the members ends with `y`. -/
inductive Walk (fields : List (Field σ)) (room : Nat) : List String → σ → Docs → σ → Prop
  | done {seen : List String} {x : σ} :
      (∀ f ∈ fields, f.required = true → f.name ∈ seen) → Walk fields room seen x [] x
  | unknown {seen : List String} {x y : σ} {key : String} {d : Doc} {docs : Docs} :
      fields.find? (·.name = key) = none → d.intact = true → Walk fields room seen x docs y →
      Walk fields room seen x ((some key, d) :: docs) y
  | known {seen : List String} {x y z : σ} {key : String} {d : Doc} {docs : Docs} {f : Field σ} :
      fields.find? (·.name = key) = some f → key ∉ seen → f.read room d x = .ok z →
      Walk fields room (key :: seen) z docs y → Walk fields room seen x ((some key, d) :: docs) y

theorem walk_of_members (h : members fields room seen x docs = .ok y) :
    Walk fields room seen x docs y := by
  induction docs generalizing seen x with
  | nil =>
    rw [members] at h
    split at h
    · rename_i hall
      obtain rfl := Except.ok.inj h
      refine .done fun f hf hrequired => ?_
      simpa [hrequired] using List.all_eq_true.mp hall f hf
    · cases h
  | cons m docs ih =>
    obtain ⟨_ | key, d⟩ := m
    · cases h
    · rw [members] at h
      split at h
      · rename_i hfind
        split at h
        · exact .unknown hfind ‹_› (ih h)
        · cases h
      · rename_i f hfind
        split at h
        · cases h
        · rename_i hunseen
          cases hread : f.read room d x with
          | error e =>
            rw [hread] at h
            cases h
          | ok z =>
            rw [hread] at h
            exact .known hfind (by simpa using hunseen) hread (ih h)

theorem Walk.members_eq (h : Walk fields room seen x docs y) :
    members fields room seen x docs = .ok y := by
  induction h with
  | done hall =>
    rw [members, if_pos]
    refine List.all_eq_true.mpr fun f hf => ?_
    cases hrequired : f.required with
    | false => rfl
    | true => simpa using hall f hf hrequired
  | unknown hfind hd _ ih =>
    rw [members, hfind]
    simp only [hd, if_true, ih]
  | known hfind hunseen hread _ ih =>
    rw [members, hfind]
    simp only [List.contains_eq_mem, hunseen, decide_false, Bool.false_eq_true, if_false, hread]
    exact ih

theorem members_eq_ok :
    members fields room seen x docs = .ok y ↔ Walk fields room seen x docs y :=
  ⟨walk_of_members, Walk.members_eq⟩

theorem read_of_eq_ok {required : Bool} :
    (Field.of name required decoder set).read room d x = .ok y ↔
      ∃ a, decoder room d = .ok a ∧ y = set x a := by
  simp only [Field.of]
  cases decoder room d with
  | error e => simp [Except.map]
  | ok a => simp [Except.map, eq_comm]

-- ---------------------------------------------------------------------------
-- Parts
-- ---------------------------------------------------------------------------

structure Part (σ : Type) where
  {α : Type}
  name : String
  required : Bool
  decoder : Decoder α
  get : σ → α
  set : σ → α → σ

def Part.field (p : Part σ) : Field σ := .of p.name p.required p.decoder p.set

/-- The parts have members of their own, and setting one leaves the other alone. -/
def Part.Apart (p q : Part σ) : Prop :=
  p.name ≠ q.name ∧ (∀ x b, p.get (q.set x b) = p.get x) ∧ ∀ x a, q.get (p.set x a) = q.get x

instance : Std.Symm (@Part.Apart σ) := ⟨fun _ _ h => ⟨h.1.symm, h.2.2, h.2.1⟩⟩

/-- The parts are apart from each other and make up the structure, and what is set is got. -/
structure Lawful (parts : List (Part σ)) : Prop where
  get_set : ∀ p ∈ parts, ∀ x a, p.get (p.set x a) = a
  apart : parts.Pairwise Part.Apart
  ext : ∀ x y, (∀ p ∈ parts, p.get x = p.get y) → x = y

/-- The document of the member stands for the value, or there is no such member and the
value is as it was. -/
def Given (docs : Docs) (name : String) (stands : α → Doc → Prop) (was a : α) : Prop :=
  some name ∉ docs.map Prod.fst ∧ a = was ∨ ∃ d, (some name, d) ∈ docs ∧ stands a d

/-- What is asked of the members: the required ones are there, none is there twice, and
each is read by its decoder. -/
structure Fit (parts : List (Part σ)) (room : Nat) (seen : List String) (docs : Docs) :
    Prop where
  required : ∀ p ∈ parts, p.required = true → p.name ∈ seen ∨ some p.name ∈ docs.map Prod.fst
  unseen : ∀ p ∈ parts, p.name ∈ seen → some p.name ∉ docs.map Prod.fst
  once : ∀ p ∈ parts, (docs.map Prod.fst).count (some p.name) ≤ 1
  accepted : ∀ p ∈ parts, ∀ d, (some p.name, d) ∈ docs → ∃ a, p.decoder room d = .ok a

section
variable {parts : List (Part σ)} {p q : Part σ}

theorem Lawful.eq_of_name (h : Lawful parts) (hp : p ∈ parts) (hq : q ∈ parts)
    (hname : p.name = q.name) : p = q := by
  by_contra hne
  exact (h.apart.forall hp hq hne).1 hname

theorem Lawful.get_set_of_ne (h : Lawful parts) (hp : p ∈ parts) (hq : q ∈ parts)
    (hne : p.name ≠ q.name) (x : σ) (b : q.α) : p.get (q.set x b) = p.get x :=
  (h.apart.forall hp hq fun heq => hne (heq ▸ rfl)).2.1 x b

theorem find?_field_eq_none : (parts.map Part.field).find? (·.name = key) = none ↔
    ∀ p ∈ parts, p.name ≠ key := by
  rw [List.find?_eq_none, List.forall_mem_map]
  simp only [decide_eq_true_eq]
  exact Iff.rfl

theorem exists_of_find?_field (h : (parts.map Part.field).find? (·.name = key) = some f) :
    ∃ p ∈ parts, f = p.field ∧ p.name = key := by
  obtain ⟨p, hp, rfl⟩ := List.mem_map.mp (List.mem_of_find?_eq_some h)
  have hname := List.find?_some h
  simp only [decide_eq_true_eq] at hname
  exact ⟨p, hp, rfl, hname⟩

theorem Walk.unseen (h : Walk (parts.map Part.field) room seen x docs y) (hp : p ∈ parts)
    (hseen : p.name ∈ seen) : some p.name ∉ docs.map Prod.fst := by
  induction h with
  | done => exact List.not_mem_nil
  | @unknown _ _ _ key _ _ hfind _ _ ih =>
    have hne : p.name ≠ key := find?_field_eq_none.mp hfind p hp
    simpa [hne] using ih hseen
  | @known _ _ _ _ key _ _ _ _ hunseen _ _ ih =>
    have hne : p.name ≠ key := fun heq => hunseen (heq ▸ hseen)
    simpa [hne] using ih (List.mem_cons_of_mem _ hseen)

theorem Walk.given (h : Walk (parts.map Part.field) room seen x docs y) (hlawful : Lawful parts)
    (hp : p ∈ parts) :
    Given docs p.name (fun a d => p.decoder room d = .ok a) (p.get x) (p.get y) := by
  induction h with
  | done => exact .inl ⟨List.not_mem_nil, rfl⟩
  | @unknown _ _ _ key _ _ hfind _ _ ih =>
    have hne : p.name ≠ key := find?_field_eq_none.mp hfind p hp
    obtain ⟨hnone, hget⟩ | ⟨d, hd, hdecode⟩ := ih
    · exact .inl ⟨by simpa [hne] using hnone, hget⟩
    · exact .inr ⟨d, List.mem_cons_of_mem _ hd, hdecode⟩
  | @known _ _ _ _ key d _ f hfind _ hread hwalk ih =>
    obtain ⟨q, hq, rfl, rfl⟩ := exists_of_find?_field hfind
    obtain ⟨a, ha, rfl⟩ := read_of_eq_ok.mp hread
    by_cases hname : p.name = q.name
    · obtain rfl := hlawful.eq_of_name hp hq hname
      obtain ⟨-, hget⟩ | ⟨_, hmem, -⟩ := ih
      · rw [hlawful.get_set p hp] at hget
        exact .inr ⟨d, List.mem_cons_self, hget ▸ ha⟩
      · exact absurd (List.mem_map_of_mem hmem) (hwalk.unseen hp List.mem_cons_self)
    · rw [hlawful.get_set_of_ne hp hq hname] at ih
      obtain ⟨hnone, hget⟩ | ⟨d, hd, hdecode⟩ := ih
      · exact .inl ⟨by simpa [hname] using hnone, hget⟩
      · exact .inr ⟨d, List.mem_cons_of_mem _ hd, hdecode⟩

theorem Walk.required (h : Walk (parts.map Part.field) room seen x docs y) (hp : p ∈ parts)
    (hrequired : p.required = true) : p.name ∈ seen ∨ some p.name ∈ docs.map Prod.fst := by
  induction h with
  | done hall => exact .inl (hall p.field (List.mem_map_of_mem hp) hrequired)
  | unknown _ _ _ ih => exact ih.imp_right (List.mem_cons_of_mem _)
  | known _ _ _ _ ih =>
    obtain hseen | hlater := ih
    · obtain hname | hseen := List.mem_cons.mp hseen
      · exact .inr (List.mem_cons.mpr (.inl (congrArg some hname)))
      · exact .inl hseen
    · exact .inr (List.mem_cons_of_mem _ hlater)

theorem Walk.once (h : Walk (parts.map Part.field) room seen x docs y) (hp : p ∈ parts) :
    (docs.map Prod.fst).count (some p.name) ≤ 1 := by
  induction h with
  | done => exact Nat.zero_le 1
  | @unknown _ _ _ key _ _ hfind _ _ ih =>
    have hne : some key ≠ some p.name :=
      fun heq => find?_field_eq_none.mp hfind p hp (Option.some.inj heq).symm
    rwa [List.map_cons, List.count_cons_of_ne hne]
  | @known _ _ _ _ key _ _ _ _ _ _ hwalk ih =>
    rw [List.map_cons]
    by_cases hname : p.name = key
    · have hlater := hwalk.unseen hp (List.mem_cons.mpr (.inl hname))
      rw [← hname, List.count_cons_self, List.count_eq_zero.mpr hlater]
    · rwa [List.count_cons_of_ne fun heq => hname (Option.some.inj heq).symm]

theorem eq_of_once {d' : Doc} (h : (docs.map Prod.fst).count (some name) ≤ 1)
    (hd : (some name, d) ∈ docs) (hd' : (some name, d') ∈ docs) : d = d' := by
  induction docs with
  | nil => cases hd
  | cons m docs ih =>
    obtain ⟨key, e⟩ := m
    rw [List.map_cons] at h
    by_cases hkey : key = some name
    · subst hkey
      rw [List.count_cons_self] at h
      have hnone : some name ∉ docs.map Prod.fst := List.count_eq_zero.mp (by omega)
      have honly {d : Doc} (hd : (some name, d) ∈ (some name, e) :: docs) : d = e := by
        obtain heq | hmem := List.mem_cons.mp hd
        · exact (Prod.mk.inj heq).2
        · exact absurd (List.mem_map_of_mem hmem) hnone
      rw [honly hd, honly hd']
    · rw [List.count_cons_of_ne hkey] at h
      have hlater {d : Doc} (hd : (some name, d) ∈ (key, e) :: docs) : (some name, d) ∈ docs :=
        (List.mem_cons.mp hd).resolve_left fun heq => hkey (Prod.mk.inj heq).1.symm
      exact ih h (hlater hd) (hlater hd')

theorem Walk.fit (h : Walk (parts.map Part.field) room seen x docs y) (hlawful : Lawful parts) :
    Fit parts room seen docs where
  required p hp := h.required hp
  unseen p hp := h.unseen hp
  once p hp := h.once hp
  accepted p hp d hd := by
    obtain ⟨hnone, -⟩ | ⟨d', hd', ha⟩ := h.given hlawful hp
    · exact absurd (List.mem_map_of_mem hd) hnone
    · rw [eq_of_once (h.once hp) hd hd']
      exact ⟨_, ha⟩

theorem Fit.tail (h : Fit parts room seen ((some key, d) :: docs)) :
    Fit parts room (key :: seen) docs where
  required p hp hrequired := by
    obtain hseen | hmem := h.required p hp hrequired
    · exact .inl (List.mem_cons_of_mem _ hseen)
    · obtain heq | hmem := List.mem_cons.mp hmem
      · exact .inl (List.mem_cons.mpr (.inl (Option.some.inj heq)))
      · exact .inr hmem
  unseen p hp hseen := by
    obtain hname | hseen := List.mem_cons.mp hseen
    · have hcount := h.once p hp
      rw [List.map_cons, hname, List.count_cons_self] at hcount
      rw [hname]
      exact List.count_eq_zero.mp (by omega)
    · exact fun hmem => h.unseen p hp hseen (List.mem_cons_of_mem _ hmem)
  once p hp := Nat.le_trans (List.count_le_count_cons ..) (h.once p hp)
  accepted p hp e he := h.accepted p hp e (List.mem_cons_of_mem _ he)

theorem Fit.forget (h : Fit parts room (key :: seen) docs) (hkey : ∀ p ∈ parts, p.name ≠ key) :
    Fit parts room seen docs where
  required p hp hrequired := (h.required p hp hrequired).imp_left fun hseen =>
    (List.mem_cons.mp hseen).resolve_left (hkey p hp)
  unseen p hp hseen := h.unseen p hp (List.mem_cons_of_mem _ hseen)
  once := h.once
  accepted := h.accepted

theorem Fit.exists_walk (h : Fit parts room seen docs)
    (hdocs : ∀ m ∈ docs, m.1.isSome = true ∧ m.2.intact = true) (x : σ) :
    ∃ y, Walk (parts.map Part.field) room seen x docs y := by
  induction docs generalizing seen x with
  | nil =>
    refine ⟨x, .done fun f hf hrequired => ?_⟩
    obtain ⟨p, hp, rfl⟩ := List.mem_map.mp hf
    exact (h.required p hp hrequired).resolve_right List.not_mem_nil
  | cons m docs ih =>
    obtain ⟨⟨hkey, hintact⟩, hrest⟩ := List.forall_mem_cons.mp hdocs
    obtain ⟨_ | key, d⟩ := m
    · cases hkey
    · cases hfind : (parts.map Part.field).find? (·.name = key) with
      | none =>
        have hfit := h.tail.forget (find?_field_eq_none.mp hfind)
        obtain ⟨y, hy⟩ := ih hfit hrest x
        exact ⟨y, .unknown hfind hintact hy⟩
      | some f =>
        obtain ⟨p, hp, rfl, rfl⟩ := exists_of_find?_field hfind
        obtain ⟨a, ha⟩ := h.accepted p hp d List.mem_cons_self
        have hunseen : p.name ∉ seen := fun hseen => h.unseen p hp hseen List.mem_cons_self
        obtain ⟨y, hy⟩ := ih h.tail hrest (p.set x a)
        exact ⟨y, .known hfind hunseen (read_of_eq_ok.mpr ⟨a, ha, rfl⟩) hy⟩

theorem Given.unique {was b : α} (honce : (docs.map Prod.fst).count (some name) ≤ 1)
    (h : Given docs name (fun a d => decoder room d = .ok a) was a)
    (h' : Given docs name (fun a d => decoder room d = .ok a) was b) : a = b := by
  obtain ⟨hnone, rfl⟩ | ⟨d, hd, ha⟩ := h
  · obtain ⟨-, rfl⟩ | ⟨d', hd', -⟩ := h'
    · rfl
    · exact absurd (List.mem_map_of_mem hd') hnone
  · obtain ⟨hnone, -⟩ | ⟨d', hd', hb⟩ := h'
    · exact absurd (List.mem_map_of_mem hd) hnone
    · rw [eq_of_once honce hd hd'] at ha
      exact Except.ok.inj (ha.symm.trans hb)

/-- The members decide alone, in whatever order they stand. -/
theorem walk_iff (hlawful : Lawful parts)
    (hdocs : ∀ m ∈ docs, m.1.isSome = true ∧ m.2.intact = true) :
    Walk (parts.map Part.field) room seen x docs y ↔ Fit parts room seen docs ∧
      ∀ p ∈ parts, Given docs p.name (fun a d => p.decoder room d = .ok a) (p.get x) (p.get y) := by
  refine ⟨fun h => ⟨h.fit hlawful, fun p hp => h.given hlawful hp⟩, fun ⟨hfit, hgiven⟩ => ?_⟩
  obtain ⟨z, hz⟩ := hfit.exists_walk hdocs x
  have hsame : y = z := hlawful.ext y z fun p hp =>
    (hgiven p hp).unique (hfit.once p hp) (hz.given hlawful hp)
  exact hsame ▸ hz

end

-- ---------------------------------------------------------------------------
-- Scalars and choices
-- ---------------------------------------------------------------------------

theorem string_eq_ok {s : String} : string room d = .ok s ↔ d = .string (some s) := by
  unfold string
  split
  · simp
  · rename_i hne
    simp only [reduceCtorEq, false_iff]
    exact hne s

theorem bool_eq_ok {b : Bool} : bool room d = .ok b ↔ d = .bool b := by
  unfold bool
  split
  · simp
  · rename_i hne
    simp only [reduceCtorEq, false_iff]
    exact hne b

/-- The document is a natural number, written without sign, fraction and exponent. -/
def IsNatural (n : Nat) (d : Doc) : Prop :=
  ∃ l, d = .number l ∧ l.IsInteger ∧ l.negative = false ∧ Text.Numeral.value l.whole = n

section
variable {l : Literal} {n : Nat} {k : Number}

theorem isInteger_of_nat? (h : Number.ofLiteral? l = some k) (hn : k.nat? = some n) :
    l.IsInteger := by
  unfold Number.ofLiteral? at h
  split at h
  · rename_i hinteger
    exact ⟨List.isEmpty_iff.mp hinteger.1, Option.isNone_iff_eq_none.mp hinteger.2⟩
  · obtain ⟨x, -, rfl⟩ := Option.map_eq_some_iff.mp h
    cases hn

/-- Only a natural number is taken for one: a negative zero is a double. -/
theorem natural_of_nat? (h : Number.ofLiteral? l = some k) (hn : k.nat? = some n) :
    l.negative = false ∧ Text.Numeral.value l.whole = n := by
  have hcarries := carries_of_ofLiteral? (isInteger_of_nat? h hn) h
  have hint : l.int = n ∧ ¬ (l.negative = true ∧ l.int = 0) := by
    cases k with
    | integer i =>
      cases hcarries with
      | int hi hzero => exact ⟨hi ▸ Word.nat?_eq_some.mp hn, hzero⟩
    | large w =>
      cases hcarries with
      | uint hlarge hw =>
        obtain rfl := Option.some.inj hn
        exact ⟨hw.symm, fun hzero => by omega⟩
    | real x => cases hn
  cases hnegative : l.negative with
  | true =>
    have hvalue := Literal.int_of_negative hnegative
    exact absurd ⟨hnegative, by omega⟩ hint.2
  | false =>
    have hvalue := Literal.int_of_nonnegative hnegative
    exact ⟨rfl, by omega⟩

theorem exists_nat? (hinteger : l.IsInteger) (hnegative : l.negative = false)
    (hsmall : Text.Numeral.value l.whole < 2 ^ 64) :
    ∃ k, Number.ofLiteral? l = some k ∧ k.nat? = some (Text.Numeral.value l.whole) := by
  obtain ⟨hfraction, hexponent⟩ := hinteger
  rw [Number.ofLiteral?, if_pos ⟨by simp [hfraction], by simp [hexponent]⟩, Number.ofInteger?,
    if_neg (by simp [hnegative])]
  generalize Text.Numeral.value l.whole = n at hsmall
  cases hword : Word.int64? n with
  | some i => exact ⟨_, rfl, Word.nat?_eq_some.mpr (Word.toInt_of_int64? hword)⟩
  | none =>
    have hlarge : Word.uint64? n = some (.ofNat n) := if_pos hsmall
    rw [hlarge]
    exact ⟨_, rfl, congrArg some (UInt64.toNat_ofNat_of_lt hsmall)⟩

theorem natural_eq_ok {hold? : Nat → Option α} (hbound : ∀ n a, hold? n = some a → n < 2 ^ 64) :
    natural hold? room d = .ok a ↔ ∃ n, IsNatural n d ∧ hold? n = some a := by
  cases d with
  | number l =>
    rw [natural]
    constructor
    · intro h
      split at h
      · cases h
      · rename_i k hk
        split at h
        · rename_i a' ha'
          obtain rfl := Except.ok.inj h
          obtain ⟨n, hn, hhold⟩ := Option.bind_eq_some_iff.mp ha'
          exact ⟨n, ⟨l, rfl, isInteger_of_nat? hk hn, natural_of_nat? hk hn⟩, hhold⟩
        · cases h
    · rintro ⟨n, ⟨l', hl', hinteger, hnegative, rfl⟩, hhold⟩
      cases hl'
      obtain ⟨k, hk, hn⟩ := exists_nat? hinteger hnegative (hbound _ _ hhold)
      simp only [hk, hn, Option.bind_some, hhold]
  | _ =>
    refine ⟨nofun, ?_⟩
    rintro ⟨n, ⟨l, hl, -⟩, -⟩
    cases hl

end

theorem uint32_eq_ok {w : UInt32} : uint32 room d = .ok w ↔ IsNatural w.toNat d := by
  rw [uint32, natural_eq_ok fun n w hw => ?_]
  · simp [Word.uint32?_eq_some]
  · rw [← Word.uint32?_eq_some.mp hw]
    exact Nat.lt_trans w.toNat_lt (by decide)

theorem uint64_eq_ok {w : UInt64} : uint64 room d = .ok w ↔ IsNatural w.toNat d := by
  rw [uint64, natural_eq_ok fun n w hw => ?_]
  · simp [Word.uint64?_eq_some]
  · rw [← Word.uint64?_eq_some.mp hw]
    exact w.toNat_lt

/-- The document gives the name, or an object that has only it, with the value null. -/
def GivesName (name : String) (d : Doc) : Prop :=
  d = .string (some name) ∨ d = .object [(some name, .null)]

theorem named_eq_ok {names : List (String × α)} :
    named names name = .ok a ↔ names.lookup name = some a := by
  unfold named
  cases names.lookup name with
  | _ => simp

theorem choice_object {names : List (String × α)} (hroom : 1 < room) :
    choice names room (.object ((some key, d) :: docs)) = .ok a ↔
      d = .null ∧ docs = [] ∧ names.lookup key = some a := by
  rw [choice, if_neg (Nat.not_le.mpr hroom), ← named_eq_ok]
  cases named names key with
  | error e => simp [bind, Except.bind]
  | ok a' =>
    cases d with
    | null =>
      cases docs with
      | nil => simp [bind, Except.bind]
      | cons m docs => simp [bind, Except.bind]
    | _ => simp [bind, Except.bind]

theorem choice_eq_ok {names : List (String × α)} (hroom : 1 < room) :
    choice names room d = .ok a ↔ ∃ name, GivesName name d ∧ names.lookup name = some a := by
  unfold GivesName
  cases d with
  | string content =>
    cases content with
    | none => simp [choice]
    | some s => simp [choice, named_eq_ok]
  | object docs =>
    obtain _ | ⟨⟨_ | key, e⟩, docs⟩ := docs
    · simp [choice]
    · simp [choice]
    · rw [choice_object hroom]
      simp [and_assoc]
  | _ => simp [choice]

-- ---------------------------------------------------------------------------
-- Texts
-- ---------------------------------------------------------------------------

theorem struct_object_eq_ok (hroom : 1 < room) :
    struct fields x room (.object docs) = .ok y ↔ Walk fields (room - 1) [] x docs y := by
  rw [struct, if_neg (Nat.not_le.mpr hroom), members_eq_ok]

theorem run_eq_ok {s : Text.Source} : decoder.run s = .ok a ↔
    decoder depthLimit (readValue s).1 = .ok a ∧ (skipSpace (readValue s).2).isEmpty = true := by
  unfold run
  obtain ⟨d, rest⟩ := readValue s
  cases hdecode : decoder depthLimit d with
  | error e => simp [hdecode, bind, Except.bind]
  | ok a' =>
    simp only [hdecode, bind, Except.bind, Except.ok.injEq]
    split
    · simp [*]
    · simp [*]

end Decoder

end GuestControl.Json
