import GuestControl.Proofs.Json.Decoding
import GuestControl.Proofs.Json.Integers
import GuestControl.Proofs.Operation.Course
import GuestControl.Proofs.Record.Table
import GuestControl.Proofs.Shell.Shapes

/-!
# From the text to a field

A record is decoded from an object in the printed text. Where the last member of a name
is an integer literal, the field of that name receives the very number that is written,
if its word can hold it. Else the record is not read, and the member is told.
-/

namespace GuestControl

open Json (Doc Docs Literal Number Carries Decoder)
open Shell (Envelope)

-- ---------------------------------------------------------------------------
-- The last pair of a key
-- ---------------------------------------------------------------------------

namespace SortedMap

variable {κ α : Type} [DecidableEq κ] {before : κ → κ → Bool} {pairs pairs' : List (κ × α)}
  {k : κ} {v : α}

theorem find?_foldl_of_not_mem (hk : k ∉ pairs.map Prod.fst) (m : SortedMap κ α) :
    find? (pairs.foldl (fun m p => insert before m p.1 p.2) m) k = find? m k := by
  induction pairs generalizing m with
  | nil => rfl
  | cons p pairs ih =>
    obtain ⟨hp, hrest⟩ := not_or.mp fun h => hk (List.mem_cons.mpr h)
    rw [List.foldl_cons, ih hrest, find?_insert_of_ne _ _ _ hp]

theorem find?_ofPairs_last (hk : k ∉ pairs'.map Prod.fst) :
    find? (ofPairs before (pairs ++ (k, v) :: pairs')) k = some v := by
  rw [ofPairs, List.foldl_append, List.foldl_cons, find?_foldl_of_not_mem hk, find?_insert_self]

theorem mem_of_find?_foldl {m : SortedMap κ α}
    (h : find? (pairs.foldl (fun m p => insert before m p.1 p.2) m) k = some v) :
    (k, v) ∈ pairs ∨ find? m k = some v := by
  induction pairs generalizing m with
  | nil => exact .inr h
  | cons p pairs ih =>
    obtain hmem | hfind := ih h
    · exact .inl (List.mem_cons_of_mem _ hmem)
    · by_cases hk : k = p.1
      · subst hk
        rw [find?_insert_self] at hfind
        obtain rfl := Option.some.inj hfind
        exact .inl List.mem_cons_self
      · exact .inr ((find?_insert_of_ne _ _ _ hk).symm.trans hfind)

theorem mem_of_find?_ofPairs (h : find? (ofPairs before pairs) k = some v) : (k, v) ∈ pairs :=
  (mem_of_find?_foldl h).resolve_right nofun

end SortedMap

-- ---------------------------------------------------------------------------
-- Documents of records
-- ---------------------------------------------------------------------------

def Decodes (docs : Docs) (r : Record) : Prop :=
  ∃ room js, Json.ofDoc? room (.object docs) = some (.object js) ∧ r = .ofJsonMembers js

/-- Of the members with this name the last is an integer literal. -/
def States (docs : Docs) (name : String) (l : Literal) : Prop :=
  l.IsInteger ∧ ∃ before after, docs = before ++ (some name, .number l) :: after ∧
    some name ∉ after.map Prod.fst

variable {docs before after : Docs} {room : Nat} {name : String} {d e : Doc} {l : Literal}
  {r : Record} {ms js : List (String × Json)} {j : Json} {items : List Json}

theorem names_of_ofMembers? (h : Json.ofMembers? room docs = some ms) :
    docs.map Prod.fst = ms.map (some ·.1) := by
  induction docs generalizing ms with
  | nil =>
    obtain rfl := Option.some.inj h
    rfl
  | cons m docs ih =>
    obtain ⟨k, d, j, rest, rfl, -, hrest, rfl⟩ := Shell.ofMembers?_cons h
    rw [List.map_cons, List.map_cons, ih hrest]

theorem ofMembers?_split
    (h : Json.ofMembers? room (before ++ (some name, d) :: after) = some ms) :
    ∃ ms₁ j ms₂, ms = ms₁ ++ (name, j) :: ms₂ ∧ Json.ofDoc? room d = some j ∧
      Json.ofMembers? room after = some ms₂ := by
  induction before generalizing ms with
  | nil =>
    obtain ⟨k, d', j, rest, heq, hd, hrest, rfl⟩ := Shell.ofMembers?_cons h
    cases heq
    exact ⟨[], j, rest, rfl, hd, hrest⟩
  | cons m before ih =>
    obtain ⟨k, d', j', rest, rfl, -, hrest, rfl⟩ := Shell.ofMembers?_cons h
    obtain ⟨ms₁, j, ms₂, rfl, hd, hafter⟩ := ih hrest
    exact ⟨(k, j') :: ms₁, j, ms₂, rfl, hd, hafter⟩

theorem exists_ofMembers? (h : Json.ofDoc? room (.object docs) = some (.object js)) :
    ∃ ms, Json.ofMembers? (room - 1) docs = some ms ∧ js = SortedMap.ofPairs Text.before ms := by
  rw [Json.ofDoc?] at h
  split at h
  · cases h
  · obtain ⟨ms, hms, hjs⟩ := Option.map_eq_some_iff.mp h
    exact ⟨ms, hms, (Json.object.inj hjs).symm⟩

theorem Decodes.carries (h : Decodes docs r) (hl : States docs name l) :
    ∃ v, r.get? name = some v ∧ Carries l v := by
  obtain ⟨room, js, hjs, rfl⟩ := h
  obtain ⟨hinteger, before, after, rfl, hlast⟩ := hl
  obtain ⟨ms, hms, rfl⟩ := exists_ofMembers? hjs
  obtain ⟨ms₁, j, ms₂, rfl, hj, hafter⟩ := ofMembers?_split hms
  have hnone : name ∉ ms₂.map Prod.fst := by
    intro hmem
    obtain ⟨p, hp, hname⟩ := List.mem_map.mp hmem
    rw [names_of_ofMembers? hafter] at hlast
    exact hlast (List.mem_map.mpr ⟨p, hp, by rw [hname]⟩)
  obtain ⟨n, hn, rfl⟩ := Option.map_eq_some_iff.mp hj
  refine ⟨.ofJson (.number n), ?_, Json.carries_of_ofLiteral? hinteger hn⟩
  rw [Record.get?_ofJsonMembers, SortedMap.find?_ofPairs_last hnone]
  rfl

-- ---------------------------------------------------------------------------
-- Where records come from
-- ---------------------------------------------------------------------------

inductive Within : Doc → Doc → Prop
  | self {d : Doc} : Within d d
  | item {d e : Doc} {items : List Doc} : d ∈ items → Within e d → Within e (.array items)
  | member {k : Option String} {d e : Doc} {members : Docs} : (k, d) ∈ members → Within e d →
      Within e (.object members)

theorem mem_of_ofItems? {ds : List Doc} (h : Json.ofItems? room ds = some items) (hj : j ∈ items) :
    ∃ d ∈ ds, Json.ofDoc? room d = some j := by
  induction ds generalizing items with
  | nil =>
    obtain rfl := Option.some.inj h
    cases hj
  | cons d ds ih =>
    rw [Json.ofItems?] at h
    split at h
    · rename_i hd hds
      obtain rfl := Option.some.inj h
      obtain rfl | hj := List.mem_cons.mp hj
      · exact ⟨d, List.mem_cons_self, hd⟩
      · obtain ⟨d', hd', hdoc⟩ := ih hds hj
        exact ⟨d', List.mem_cons_of_mem _ hd', hdoc⟩
    · cases h

theorem mem_of_ofMembers? (h : Json.ofMembers? room docs = some ms) (hj : (name, j) ∈ ms) :
    ∃ d, (some name, d) ∈ docs ∧ Json.ofDoc? room d = some j := by
  induction docs generalizing ms with
  | nil =>
    obtain rfl := Option.some.inj h
    cases hj
  | cons m docs ih =>
    obtain ⟨k, d, j', rest, rfl, hd, hrest, rfl⟩ := Shell.ofMembers?_cons h
    obtain heq | hj := List.mem_cons.mp hj
    · cases heq
      exact ⟨d, List.mem_cons_self, hd⟩
    · obtain ⟨d', hd', hdoc⟩ := ih hrest hj
      exact ⟨d', List.mem_cons_of_mem _ hd', hdoc⟩

theorem ofDoc?_cases (h : Json.ofDoc? room d = some j) :
    (∃ ds items, d = .array ds ∧ j = .array items ∧ Json.ofItems? (room - 1) ds = some items) ∨
      (∃ docs js, d = .object docs ∧ j = .object js) ∨
      (∀ items, j ≠ .array items) ∧ ∀ js, j ≠ .object js := by
  cases d with
  | array ds =>
    rw [Json.ofDoc?] at h
    split at h
    · cases h
    · obtain ⟨items, hitems, rfl⟩ := Option.map_eq_some_iff.mp h
      exact .inl ⟨ds, items, rfl, rfl, hitems⟩
  | object docs =>
    rw [Json.ofDoc?] at h
    split at h
    · cases h
    · obtain ⟨_, -, rfl⟩ := Option.map_eq_some_iff.mp h
      exact .inr (.inl ⟨docs, _, rfl, rfl⟩)
  | number l | string content =>
    obtain ⟨_, -, rfl⟩ := Option.map_eq_some_iff.mp h
    exact .inr (.inr ⟨nofun, nofun⟩)
  | null | bool b =>
    obtain rfl := Option.some.inj h
    exact .inr (.inr ⟨nofun, nofun⟩)
  | broken => cases h

theorem eq_array_of_ofDoc? (h : Json.ofDoc? room d = some (.array items)) :
    ∃ ds, d = .array ds ∧ Json.ofItems? (room - 1) ds = some items := by
  obtain ⟨ds, _, rfl, heq, hds⟩ | ⟨_, _, _, heq⟩ | ⟨hno, -⟩ := ofDoc?_cases h
  · cases heq
    exact ⟨ds, rfl, hds⟩
  · cases heq
  · exact absurd rfl (hno _)

theorem eq_object_of_ofDoc? (h : Json.ofDoc? room d = some (.object js)) :
    ∃ docs, d = .object docs := by
  obtain ⟨_, _, _, heq, -⟩ | ⟨docs, _, rfl, -⟩ | ⟨-, hno⟩ := ofDoc?_cases h
  · cases heq
  · exact ⟨docs, rfl⟩
  · exact absurd rfl (hno _)

/-- The objects that a collection holds stand in its document. -/
theorem exists_decodes_of_holds (h : Shell.Holds j items) (hd : Json.ofDoc? room d = some j)
    (hjs : .object js ∈ items) : ∃ docs, Within (.object docs) d ∧
      Decodes docs (.ofJsonMembers js) := by
  induction h generalizing room d with
  | null => cases hjs
  | array =>
    obtain ⟨ds, rfl, hds⟩ := eq_array_of_ofDoc? hd
    obtain ⟨d', hd', hdoc⟩ := mem_of_ofItems? hds hjs
    obtain ⟨docs, rfl⟩ := eq_object_of_ofDoc? hdoc
    exact ⟨docs, .item hd' .self, _, _, hdoc, rfl⟩
  | bare =>
    cases List.mem_singleton.mp hjs
    obtain ⟨docs, rfl⟩ := eq_object_of_ofDoc? hd
    exact ⟨docs, .self, _, _, hd, rfl⟩
  | scalar hscalar =>
    obtain rfl := List.mem_singleton.mp hjs
    exact hscalar.elim
  | wrapped _ hcontent _ ih =>
    obtain ⟨docs, rfl⟩ := eq_object_of_ofDoc? hd
    obtain ⟨ms, hms, rfl⟩ := exists_ofMembers? hd
    obtain ⟨d', hd', hdoc⟩ := mem_of_ofMembers? hms (SortedMap.mem_of_find?_ofPairs hcontent)
    obtain ⟨docs', hwithin, hdecodes⟩ := ih hdoc hjs
    exact ⟨docs', .member hd' hwithin, hdecodes⟩

theorem Within.trans {d₁ d₂ d₃ : Doc} (h : Within d₁ d₂) (h' : Within d₂ d₃) : Within d₁ d₃ := by
  induction h' with
  | self => exact h
  | item hmem _ ih => exact .item hmem (ih h)
  | member hmem _ ih => exact .member hmem (ih h)

section
variable {f : Decoder.Field Envelope} {fields : List (Decoder.Field Envelope)} {seen : List String}
  {env env' : Envelope} {ds : List Doc}

theorem records_of_read (hf : f ∈ Envelope.fields) (h : f.read room d env = .ok env') :
    env'.records = env.records ∨ Json.ofDoc? room d = some env'.records := by
  have hvalue {j : Json} (hj : Decoder.value room d = .ok j) : Json.ofDoc? room d = some j := by
    unfold Decoder.value at hj
    split at hj
    · rename_i hdoc
      rwa [← Except.ok.inj hj]
    · cases hj
  simp only [Envelope.fields, List.mem_cons, List.not_mem_nil, or_false] at hf
  obtain rfl | rfl := hf
  · obtain ⟨j, hj, rfl⟩ := Decoder.read_of_eq_ok.mp h
    exact .inr (hvalue hj)
  · obtain ⟨_, -, rfl⟩ := Decoder.read_of_eq_ok.mp h
    exact .inl rfl

theorem records_of_walk (h : Decoder.Walk Envelope.fields room seen env docs env') :
    env'.records = env.records ∨
      ∃ k d, (k, d) ∈ docs ∧ Json.ofDoc? room d = some env'.records := by
  induction h with
  | done => exact .inl rfl
  | unknown _ _ _ ih =>
    exact ih.imp_right fun ⟨k, d, hmem, hd⟩ => ⟨k, d, List.mem_cons_of_mem _ hmem, hd⟩
  | known hfind _ hread _ ih =>
    obtain hlast | ⟨k, d, hmem, hd⟩ := ih
    · rw [hlast]
      refine (records_of_read (List.mem_of_find?_eq_some hfind) hread).imp_right fun hd => ?_
      exact ⟨_, _, List.mem_cons_self, hd⟩
    · exact .inr ⟨k, d, List.mem_cons_of_mem _ hmem, hd⟩

theorem records_of_items (hfields : ∀ f ∈ fields, f ∈ Envelope.fields)
    (h : Decoder.items room env fields ds = .ok env') :
    env'.records = env.records ∨ ∃ d ∈ ds, Json.ofDoc? room d = some env'.records := by
  induction fields generalizing env ds with
  | nil =>
    cases ds with
    | nil => exact .inl (congrArg Envelope.records (Except.ok.inj h)).symm
    | cons d ds => cases h
  | cons f fields ih =>
    obtain ⟨hf, hfields⟩ := List.forall_mem_cons.mp hfields
    cases ds with
    | nil =>
      rw [Decoder.items] at h
      split at h
      · cases h
      · exact ih hfields h
    | cons d ds =>
      rw [Decoder.items] at h
      cases hread : f.read room d env with
      | error e =>
        rw [hread] at h
        cases h
      | ok env₁ =>
        rw [hread] at h
        obtain hlast | ⟨d', hmem, hd⟩ := ih hfields h
        · rw [hlast]
          exact (records_of_read hf hread).imp_right fun hd => ⟨d, List.mem_cons_self, hd⟩
        · exact .inr ⟨d', List.mem_cons_of_mem _ hmem, hd⟩

theorem records_of_decoder (h : Envelope.decoder room d = .ok env) : env.records = .null ∨
    ∃ room e, Within e d ∧ Json.ofDoc? room e = some env.records := by
  unfold Envelope.decoder Decoder.struct at h
  split at h
  · split at h
    · cases h
    · refine (records_of_walk (Decoder.members_eq_ok.mp h)).imp_right fun ⟨k, e, hmem, he⟩ => ?_
      exact ⟨_, e, .member hmem .self, he⟩
  · split at h
    · cases h
    · refine (records_of_items (fun _ hf => hf) h).imp_right fun ⟨e, hmem, he⟩ => ?_
      exact ⟨_, e, .item hmem .self, he⟩
  · cases h

end

theorem exists_decodes {wording : String → String} {printed : String} {o : Outcome}
    (h : Shell.decodeOutput wording printed = .ok o) (hr : r ∈ o.records) : ∃ docs, Decodes docs r ∧
      Within (.object docs) (Json.readValue (.ofString (Text.trim printed))).1 := by
  obtain ⟨env, errors, hrun, -, rfl⟩ := Shell.decodeOutput_ok.mp h
  obtain ⟨j, hj, hrecord⟩ := List.mem_filterMap.mp hr
  obtain ⟨js, rfl, rfl⟩ : ∃ js, j = .object js ∧ r = .ofJsonMembers js := by
    cases j with
    | object js => exact ⟨js, rfl, (Option.some.inj hrecord).symm⟩
    | _ => cases hrecord
  obtain ⟨hdecoder, -⟩ := Decoder.run_eq_ok.mp hrun
  obtain hnull | ⟨room, e, hwithin, he⟩ := records_of_decoder hdecoder
  · rw [hnull] at hj
    cases hj
  · obtain ⟨docs, hobject, hdecodes⟩ := exists_decodes_of_holds (Shell.flatten_holds _) he hj
    exact ⟨docs, hdecodes, hobject.trans hwithin⟩

-- ---------------------------------------------------------------------------
-- Fields
-- ---------------------------------------------------------------------------

open Schema (Member Tabled Reads)

/-- The field of a member receives the number if it is in the range of its word; else, if
nothing else is wrong, the member is told. -/
structure Receives {σ : Type} (schema : Schema σ) (members : List Member) (r : Record)
    (name : String) (field : σ → Nat) (bound : Nat) (n : Int) : Prop where
  exact : ∀ x, schema.read r = .ok x → (field x : Int) = n ∧ 0 ≤ n ∧ n < bound
  received : (∀ p ∈ members, p.name ≠ name → p.Fits r) → 0 ≤ n → n < bound →
    ∃ x, schema.read r = .ok x
  refused : (∀ p ∈ members, p.name ≠ name → p.Fits r) → ¬ (0 ≤ n ∧ n < bound) →
    ∃ expected found, schema.read r = .error (.materialization name expected found)

section
variable {σ α : Type} {schema : Schema σ} {members : List Member} {v : Value} {n : Int}
  {bound : Nat} {convert : Value → Except Mismatch α} {get : σ → α} {toNat : α → Nat}

theorem Schema.Member.Fails.not_fits {p : Member} {m : Mismatch} (h : p.Fails r m) :
    ¬ p.Fits r := by
  obtain ⟨v, hv, hnull, hm⟩ := h
  intro hfits
  obtain heq | hnone := hfits v hv
  · exact hnull heq
  · cases hm.symm.trans hnone

theorem receives_of (htabled : Tabled schema.fields members)
    (hnames : (members.map (·.name)).Nodup) (hmember : Member.of name convert ∈ members)
    (hreads : ∀ x, schema.read r = .ok x → ∃ was, Reads r name convert was (get x))
    (hv : r.get? name = some v) (hnull : v ≠ .null)
    (hconvert : ∀ a, convert v = .ok a ↔ (toNat a : Int) = n)
    (hrange : (∃ a, (toNat a : Int) = n) ↔ 0 ≤ n ∧ n < bound) :
    Receives schema members r name (fun x => toNat (get x)) bound n := by
  have hgiven : Schema.given r name = some v :=
    Schema.given_eq_some.mpr ⟨hv, Schema.isNull_eq_false.mpr hnull⟩
  have honly {p : Member} (hp : p ∈ members) (hname : p.name = name) : p = .of name convert :=
    List.inj_on_of_nodup_map hnames hp hmember hname
  have hexact (x : σ) (hx : schema.read r = .ok x) : (toNat (get x) : Int) = n := by
    obtain ⟨was, ⟨hnone, -⟩ | ⟨v', hv', ha⟩⟩ := hreads x hx
    · cases hnone.symm.trans hgiven
    · obtain rfl := Option.some.inj (hgiven.symm.trans hv')
      exact (hconvert _).mp ha
  refine ⟨fun x hx => ⟨hexact x hx, hrange.mp ⟨_, hexact x hx⟩⟩, fun hothers hlow hhigh => ?_,
    fun hothers hout => ?_⟩
  · refine (Schema.exists_read htabled).mpr fun p hp => ?_
    by_cases hname : p.name = name
    · obtain rfl := honly hp hname
      obtain ⟨a, ha⟩ := hrange.mpr ⟨hlow, hhigh⟩
      intro v' hv'
      obtain rfl := Option.some.inj (hv.symm.trans hv')
      right
      simp only [Member.of, (hconvert a).mpr ha, failure?]
    · exact hothers p hp hname
  · cases hread : schema.read r with
    | ok x => exact absurd (hrange.mp ⟨_, hexact x hread⟩) hout
    | error e =>
      obtain ⟨before, p, after, m, rfl, -, hfails, rfl⟩ := (Schema.read_eq_error htabled).mp hread
      have hp : p ∈ before ++ p :: after := List.mem_append_right _ List.mem_cons_self
      have hname : p.name = name := by
        by_contra hne
        exact hfails.not_fits (hothers p hp hne)
      exact ⟨m.expected, m.found, by rw [hname]⟩

end

theorem exists_natCast {n : Int} {bound : Nat} :
    (∃ k < bound, (k : Int) = n) ↔ 0 ≤ n ∧ n < bound := by
  constructor
  · rintro ⟨k, hk, rfl⟩
    exact ⟨Int.natCast_nonneg _, by exact_mod_cast hk⟩
  · rintro ⟨hlow, hhigh⟩
    exact ⟨n.toNat, (Int.toNat_lt hlow).mpr hhigh, Int.toNat_of_nonneg hlow⟩

theorem exists_uint64 {n : Int} :
    (∃ w : UInt64, (w.toNat : Int) = n) ↔ 0 ≤ n ∧ n < (2 ^ 64 : Nat) :=
  Word.exists_uint64.trans exists_natCast

theorem exists_uint32 {n : Int} :
    (∃ w : UInt32, (w.toNat : Int) = n) ↔ 0 ≤ n ∧ n < (2 ^ 32 : Nat) :=
  Word.exists_uint32.trans exists_natCast

def Machine.wideFields : List (String × (Machine → UInt64)) :=
  [("MemoryMinimum", memoryMinimum), ("MemoryMaximum", memoryMaximum),
    ("MemoryStartup", memoryStartup)]

def Machine.narrowFields : List (String × (Machine → UInt32)) :=
  [("ProcessorCount", processorCount), ("Generation", generation)]

def Host.wideFields : List (String × (Host → UInt64)) := [("MemoryCapacity", memoryCapacity)]

def Host.narrowFields : List (String × (Host → UInt32)) :=
  [("LogicalProcessorCount", logicalProcessorCount)]

structure SizeEnding (ending : Ending Answer) (n : Int) : Prop where
  received : 0 ≤ n → n < 2 ^ 64 → ∃ w : UInt64, ending = .value (.size w) ∧ (w.toNat : Int) = n
  refused : ¬ (0 ≤ n ∧ n < 2 ^ 64) →
    ∃ expected found, ending = .error (.materialization "Size" expected found)

structure Arrives (o : Outcome) (r : Record) (name : String) (l : Literal) : Prop where
  carried : ∃ v, r.get? name = some v ∧ Carries l v
  machineWide : ∀ get, (name, get) ∈ Machine.wideFields →
    Receives Machine.schema Machine.members r name (fun m => (get m).toNat) (2 ^ 64) l.int
  machineNarrow : ∀ get, (name, get) ∈ Machine.narrowFields →
    Receives Machine.schema Machine.members r name (fun m => (get m).toNat) (2 ^ 32) l.int
  hostWide : ∀ get, (name, get) ∈ Host.wideFields →
    Receives Host.schema Host.members r name (fun h => (get h).toNat) (2 ^ 64) l.int
  hostNarrow : ∀ get, (name, get) ∈ Host.narrowFields →
    Receives Host.schema Host.members r name (fun h => (get h).toNat) (2 ^ 32) l.int
  size : o.first? = some r → name = "Size" → ∀ path,
    (∃ ending, (Operation.diskSize path).Ends [.finished o] ending) ∧
    ∀ ending, (Operation.diskSize path).Ends [.finished o] ending → SizeEnding ending l.int

section
variable {v : Value} {o : Outcome} {path : String} {ending : Ending Answer}

theorem Json.Carries.ne_null (h : Carries l v) : v ≠ .null := by
  rintro rfl
  cases h

variable {σ : Type} {schema : Schema σ} {members : List Member}

theorem Json.Carries.wide {get : σ → UInt64} (h : Carries l v) (hv : r.get? name = some v)
    (htabled : Tabled schema.fields members) (hnames : (members.map (·.name)).Nodup)
    (hmember : Member.of name Value.toUInt64 ∈ members)
    (hreads : ∀ x, schema.read r = .ok x → ∃ was, Reads r name Value.toUInt64 was (get x)) :
    Receives schema members r name (fun x => (get x).toNat) (2 ^ 64) l.int :=
  receives_of htabled hnames hmember hreads hv h.ne_null (fun _ => h.toUInt64_eq_ok) exists_uint64

theorem Json.Carries.narrow {get : σ → UInt32} (h : Carries l v) (hv : r.get? name = some v)
    (htabled : Tabled schema.fields members) (hnames : (members.map (·.name)).Nodup)
    (hmember : Member.of name Value.toUInt32 ∈ members)
    (hreads : ∀ x, schema.read r = .ok x → ∃ was, Reads r name Value.toUInt32 was (get x)) :
    Receives schema members r name (fun x => (get x).toNat) (2 ^ 32) l.int :=
  receives_of htabled hnames hmember hreads hv h.ne_null (fun _ => h.toUInt32_eq_ok) exists_uint32

theorem Json.Carries.sizeEnding (h : Carries l v) (hv : r.get? "Size" = some v)
    (hr : o.first? = some r) (hending : (Operation.diskSize path).Ends [.finished o] ending) :
    SizeEnding ending l.int := by
  have hgoes : (Operation.diskSize path).stops? (.finished o) = none :=
    Operation.stops?_finished.mpr nofun
  obtain rfl := hending.of_done hgoes rfl
  have hmember : o.first?.bind (·.get? GuestControl.Member.size) = some v := by
    rw [hr]
    exact hv
  have hrange := exists_uint64 (n := l.int)
  constructor
  · intro hlow hhigh
    obtain ⟨w, hw⟩ := hrange.mpr ⟨hlow, hhigh⟩
    refine ⟨w, ?_, hw⟩
    simp only [Manager.sizeOf, hmember, h.toUInt64_eq_ok.mpr hw]
    rfl
  · intro hout
    cases hconvert : v.toUInt64 with
    | ok w => exact absurd (hrange.mp ⟨w, h.toUInt64_eq_ok.mp hconvert⟩) hout
    | error m =>
      refine ⟨m.expected, m.found, ?_⟩
      simp only [Manager.sizeOf, hmember, hconvert]
      rfl

end

/-- Every record comes from an object in the text, and an integer literal that is a member of
that object is received as the number that is written, or it is refused. -/
theorem integers_received_exactly {wording : String → String} {printed : String} {o : Outcome}
    (h : Shell.decodeOutput wording printed = .ok o) (hr : r ∈ o.records) :
    (∃ docs, Decodes docs r ∧
      Within (.object docs) (Json.readValue (.ofString (Text.trim printed))).1) ∧
    ∀ docs name l, Decodes docs r → States docs name l → Arrives o r name l := by
  refine ⟨exists_decodes h hr, fun docs name l hdocs hl => ?_⟩
  obtain ⟨v, hv, hcarries⟩ := hdocs.carries hl
  refine ⟨⟨v, hv, hcarries⟩, fun get hget => ?_, fun get hget => ?_, fun get hget => ?_,
    fun get hget => ?_, fun hfirst hname path => ⟨Operation.exists_ends_done
      (Operation.stops?_finished.mpr nofun) rfl, fun ending => ?_⟩⟩
  · simp only [Machine.wideFields, List.mem_cons, Prod.mk.injEq, List.not_mem_nil, or_false] at hget
    obtain ⟨rfl, rfl⟩ | ⟨rfl, rfl⟩ | ⟨rfl, rfl⟩ := hget
    · exact hcarries.wide hv Machine.tabled (by decide) (by simp [Machine.members])
        fun _ hx => ⟨_, (Machine.readFrom hx).memoryMinimum⟩
    · exact hcarries.wide hv Machine.tabled (by decide) (by simp [Machine.members])
        fun _ hx => ⟨_, (Machine.readFrom hx).memoryMaximum⟩
    · exact hcarries.wide hv Machine.tabled (by decide) (by simp [Machine.members])
        fun _ hx => ⟨_, (Machine.readFrom hx).memoryStartup⟩
  · simp only [Machine.narrowFields, List.mem_cons, Prod.mk.injEq, List.not_mem_nil,
      or_false] at hget
    obtain ⟨rfl, rfl⟩ | ⟨rfl, rfl⟩ := hget
    · exact hcarries.narrow hv Machine.tabled (by decide) (by simp [Machine.members])
        fun _ hx => ⟨_, (Machine.readFrom hx).processorCount⟩
    · exact hcarries.narrow hv Machine.tabled (by decide) (by simp [Machine.members])
        fun _ hx => ⟨_, (Machine.readFrom hx).generation⟩
  · obtain ⟨rfl, rfl⟩ := Prod.mk.inj (List.mem_singleton.mp hget)
    exact hcarries.wide hv Host.tabled (by decide) (by simp [Host.members])
      fun _ hx => ⟨_, (Host.readFrom hx).memoryCapacity⟩
  · obtain ⟨rfl, rfl⟩ := Prod.mk.inj (List.mem_singleton.mp hget)
    exact hcarries.narrow hv Host.tabled (by decide) (by simp [Host.members])
      fun _ hx => ⟨_, (Host.readFrom hx).logicalProcessorCount⟩
  · subst hname
    exact hcarries.sizeEnding hv hfirst

/-- A host with the largest capacity and more processors than their word can count. -/
def largeHost : String :=
  "\x7b\"Records\":\x7b\"MemoryCapacity\":18446744073709551615," ++
    "\"LogicalProcessorCount\":4294967296\x7d\x7d"

def largeCapacity : Literal := .ofNat 18446744073709551615

def largeCount : Literal := .ofNat 4294967296

def largeDocs : Docs :=
  [(some "MemoryCapacity", .number largeCapacity),
    (some "LogicalProcessorCount", .number largeCount)]

def largeMembers : Shell.Members :=
  [("LogicalProcessorCount", .number (.integer 4294967296)),
    ("MemoryCapacity", .number (.large 18446744073709551615))]

theorem ofDoc?_largeDocs (room : Nat) :
    Json.ofDoc? (room + 2) (.object largeDocs) = some (.object largeMembers) := by
  have hcapacity : Number.ofLiteral? largeCapacity = some (.large 18446744073709551615) := rfl
  have hcount : Number.ofLiteral? largeCount = some (.integer 4294967296) := rfl
  simp only [Json.ofDoc?, largeDocs, Json.ofMembers?, hcapacity, hcount]
  rfl

theorem decodeOutput_largeHost (wording : String → String) :
    Shell.decodeOutput wording largeHost = .ok (Shell.conveyed [largeMembers] []) := by
  have hread : Json.readValue (.ofString (Text.trim largeHost)) =
      (.object [(some "Records", .object largeDocs)], []) := by cbv
  have hmembers : Json.ofMembers? (Json.depthLimit - 1) [(some "Records", .object largeDocs)] =
      some [("Records", .object largeMembers)] := by
    simp only [Json.ofMembers?, Json.depthLimit, ofDoc?_largeDocs]
  have hobject : Shell.IsObject (Text.trim largeHost) [("Records", .object largeMembers)] :=
    ⟨⟨_, _, hread, rfl, hmembers⟩, by decide⟩
  have hbare : ¬ Shell.IsWrapper largeMembers := fun h => absurd h.2.1 (by decide)
  exact Shell.decodeOutput_of_conveys hobject
    ⟨⟨_, .bare hbare, .object .nil⟩, ⟨_, .null, .nil⟩⟩

theorem integers_received_exactly_largeHost :
    (∃ v, (Record.ofJsonMembers largeMembers).get? "MemoryCapacity" = some v ∧
      Carries largeCapacity v) ∧
    ∃ expected found, Host.schema.read (.ofJsonMembers largeMembers) =
      .error (.materialization "LogicalProcessorCount" expected found) := by
  have harrives := (integers_received_exactly (r := .ofJsonMembers largeMembers)
    (decodeOutput_largeHost fun _ => "") List.mem_cons_self).2 largeDocs
  have hdecodes : Decodes largeDocs (.ofJsonMembers largeMembers) :=
    ⟨_, _, ofDoc?_largeDocs 0, rfl⟩
  constructor
  · exact (harrives "MemoryCapacity" largeCapacity hdecodes
      ⟨⟨rfl, rfl⟩, [], _, rfl, by decide⟩).carried
  · have hcount := (harrives "LogicalProcessorCount" largeCount hdecodes
      ⟨⟨rfl, rfl⟩, [_], [], rfl, by decide⟩).hostNarrow _ (List.mem_singleton_self _)
    refine hcount.refused (fun p hp hname => Schema.Member.error?_eq_none.mp ?_) (by decide)
    simp only [Host.members, List.mem_cons, List.not_mem_nil, or_false] at hp
    obtain rfl | rfl | rfl | rfl | rfl := hp
    · rfl
    · rfl
    · rfl
    · exact absurd rfl hname
    · rfl

end GuestControl
