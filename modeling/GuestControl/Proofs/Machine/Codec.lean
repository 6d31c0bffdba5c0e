import GuestControl.Machine.Creation
import GuestControl.Proofs.Json.Decoding
import GuestControl.Proofs.Json.RoundTrip
import Mathlib

/-!
# Creation parameters as text

Written parameters read back. An object is read as the parameters of its name and disk
with their defaults, in which exactly the given fields are replaced, whatever the order
of its members and whatever unknown ones stand between them.
-/

namespace GuestControl.Machine

open Json (Doc Docs Decoder)
open Json.Decoder (Lawful Walk Fit Given IsNatural GivesName)

namespace Creation

-- ---------------------------------------------------------------------------
-- The parts
-- ---------------------------------------------------------------------------

def parts : List (Decoder.Part Creation) :=
  [⟨"name", true, Decoder.string, name, fun c x => { c with name := x }⟩,
    ⟨"generation", false, Decoder.uint32, generation, fun c x => { c with generation := x }⟩,
    ⟨"vhd_path", true, Decoder.string, diskPath, fun c x => { c with diskPath := x }⟩,
    ⟨"switch_name", false, Decoder.string, switchName, fun c x => { c with switchName := x }⟩,
    ⟨"processor_count", false, Decoder.uint32, processorCount,
      fun c x => { c with processorCount := x }⟩,
    ⟨"memory_startup_bytes", false, Decoder.uint64, memoryStartup,
      fun c x => { c with memoryStartup := x }⟩,
    ⟨"secure_boot", false, Decoder.bool, secureBoot, fun c x => { c with secureBoot := x }⟩,
    ⟨"enhanced_session_transport", false, Decoder.choice Transport.names, transport,
      fun c x => { c with transport := x }⟩]

theorem fields_eq : fields = parts.map Decoder.Part.field := rfl

theorem lawful : Lawful parts where
  get_set := by simp [parts]
  apart := by simp [parts, Decoder.Part.Apart]
  ext c c' h := by
    simp only [parts, List.forall_mem_cons] at h
    obtain ⟨hname, hgeneration, hdisk, hswitch, hprocessors, hmemory, hboot, htransport, -⟩ := h
    cases c
    cases c'
    rw [mk.injEq]
    exact ⟨hname, hgeneration, hdisk, hswitch, hprocessors, hmemory, hboot, htransport⟩

-- ---------------------------------------------------------------------------
-- What the members stand for
-- ---------------------------------------------------------------------------

def IsText (s : String) (d : Doc) : Prop := d = .string (some s)

def IsBool (b : Bool) (d : Doc) : Prop := d = .bool b

/-- The document gives a transport by its name or by that in small letters. -/
def IsTransport (t : Transport) (d : Doc) : Prop :=
  ∃ name, GivesName name d ∧ (name, t) ∈ Transport.names

def members : List (String × (Doc → Prop)) :=
  [("name", fun d => ∃ s, IsText s d), ("generation", fun d => ∃ n < 2 ^ 32, IsNatural n d),
    ("vhd_path", fun d => ∃ s, IsText s d), ("switch_name", fun d => ∃ s, IsText s d),
    ("processor_count", fun d => ∃ n < 2 ^ 32, IsNatural n d),
    ("memory_startup_bytes", fun d => ∃ n < 2 ^ 64, IsNatural n d),
    ("secure_boot", fun d => ∃ b, IsBool b d),
    ("enhanced_session_transport", fun d => ∃ t, IsTransport t d)]

/-- The parameters of a name and a disk with their defaults, but for the fields that are
given. -/
structure GivenBy (docs : Docs) (c : Creation) : Prop where
  name : ∃ d, (some "name", d) ∈ docs ∧ IsText c.name d
  diskPath : ∃ d, (some "vhd_path", d) ∈ docs ∧ IsText c.diskPath d
  generation : Given docs "generation" (fun n => IsNatural n.toNat)
    (new c.name c.diskPath).generation c.generation
  switchName : Given docs "switch_name" IsText (new c.name c.diskPath).switchName c.switchName
  processorCount : Given docs "processor_count" (fun n => IsNatural n.toNat)
    (new c.name c.diskPath).processorCount c.processorCount
  memoryStartup : Given docs "memory_startup_bytes" (fun n => IsNatural n.toNat)
    (new c.name c.diskPath).memoryStartup c.memoryStartup
  secureBoot : Given docs "secure_boot" IsBool (new c.name c.diskPath).secureBoot c.secureBoot
  transport : Given docs "enhanced_session_transport" IsTransport
    (new c.name c.diskPath).transport c.transport

/-- Name or disk is missing, or a known member comes twice or has a document of another type. -/
def Faulty (docs : Docs) : Prop :=
  some "name" ∉ docs.map Prod.fst ∨ some "vhd_path" ∉ docs.map Prod.fst ∨
    (∃ m ∈ members, 2 ≤ (docs.map Prod.fst).count (some m.1)) ∨
    ∃ m ∈ members, ∃ d, (some m.1, d) ∈ docs ∧ ¬ m.2 d

variable {docs : Docs} {c : Creation} {room : Nat} {d : Doc} {t : Transport} {s : Text.Source}

theorem lookup_names {name : String} :
    Transport.names.lookup name = some t ↔ (name, t) ∈ Transport.names := by
  constructor
  · intro h
    obtain ⟨before, after, hnames, -⟩ := List.lookup_eq_some_iff.mp h
    rw [hnames]
    exact List.mem_append_right _ List.mem_cons_self
  · intro h
    simp only [Transport.names, List.mem_cons, Prod.mk.injEq, List.not_mem_nil, or_false] at h
    obtain ⟨rfl, rfl⟩ | ⟨rfl, rfl⟩ | ⟨rfl, rfl⟩ | ⟨rfl, rfl⟩ := h
    · rfl
    · rfl
    · rfl
    · rfl

theorem transport_eq_ok (hroom : 1 < room) :
    Decoder.choice Transport.names room d = .ok t ↔ IsTransport t d := by
  simp only [Json.Decoder.choice_eq_ok hroom, lookup_names, IsTransport]

theorem parts_members (hroom : 1 < room) :
    List.Forall₂ (fun p m => p.name = m.1 ∧ ∀ d, (∃ a, p.decoder room d = .ok a) ↔ m.2 d)
      parts members := by
  have htext (d : Doc) : (∃ s, Decoder.string room d = .ok s) ↔ ∃ s, IsText s d :=
    exists_congr fun s => Json.Decoder.string_eq_ok
  have hnarrow (d : Doc) : (∃ w, Decoder.uint32 room d = .ok w) ↔ ∃ n < 2 ^ 32, IsNatural n d :=
    (exists_congr fun _ => Json.Decoder.uint32_eq_ok).trans
      (Word.exists_uint32 (P := fun n => IsNatural n d))
  have hwide (d : Doc) : (∃ w, Decoder.uint64 room d = .ok w) ↔ ∃ n < 2 ^ 64, IsNatural n d :=
    (exists_congr fun _ => Json.Decoder.uint64_eq_ok).trans
      (Word.exists_uint64 (P := fun n => IsNatural n d))
  exact .cons ⟨rfl, htext⟩ <| .cons ⟨rfl, hnarrow⟩ <| .cons ⟨rfl, htext⟩ <| .cons ⟨rfl, htext⟩ <|
    .cons ⟨rfl, hnarrow⟩ <| .cons ⟨rfl, hwide⟩ <|
    .cons ⟨rfl, fun _ => exists_congr fun _ => Json.Decoder.bool_eq_ok⟩ <|
    .cons ⟨rfl, fun _ => exists_congr fun _ => transport_eq_ok hroom⟩ .nil

theorem exists_part (hroom : 1 < room) {m : String × (Doc → Prop)} (hm : m ∈ members) :
    ∃ p ∈ parts, p.name = m.1 ∧ ∀ d, (∃ a, p.decoder room d = .ok a) ↔ m.2 d := by
  obtain ⟨i, hi, rfl⟩ := List.getElem_of_mem hm
  have hlength := (parts_members hroom).length_eq
  exact ⟨_, List.getElem_mem (hlength ▸ hi), (parts_members hroom).get (hlength ▸ hi) hi⟩

theorem exists_member (hroom : 1 < room) {p : Decoder.Part Creation} (hp : p ∈ parts) :
    ∃ m ∈ members, p.name = m.1 ∧ ∀ d, (∃ a, p.decoder room d = .ok a) ↔ m.2 d := by
  obtain ⟨i, hi, rfl⟩ := List.getElem_of_mem hp
  have hlength := (parts_members hroom).length_eq
  exact ⟨_, List.getElem_mem (hlength ▸ hi), (parts_members hroom).get hi (hlength ▸ hi)⟩

theorem required_iff : (∀ p ∈ parts, p.required = true →
    p.name ∈ ([] : List String) ∨ some p.name ∈ docs.map Prod.fst) ↔
      some "name" ∈ docs.map Prod.fst ∧ some "vhd_path" ∈ docs.map Prod.fst := by
  simp [parts]

theorem fit_iff (hroom : 1 < room) : Fit parts room [] docs ↔ ¬ Faulty docs := by
  constructor
  · rintro hfit (hname | hdisk | ⟨m, hm, htwice⟩ | ⟨m, hm, d, hd, hwrong⟩)
    · exact hname (required_iff.mp hfit.required).1
    · exact hdisk (required_iff.mp hfit.required).2
    · obtain ⟨p, hp, hname, -⟩ := exists_part hroom hm
      have honce := hfit.once p hp
      rw [hname] at honce
      omega
    · obtain ⟨p, hp, hname, haccepts⟩ := exists_part hroom hm
      exact hwrong ((haccepts d).mp (hfit.accepted p hp d (hname ▸ hd)))
  · intro hfaults
    refine ⟨required_iff.mpr ⟨?_, ?_⟩, fun _ _ => nofun, fun p hp => ?_,
      fun p hp d hd => ?_⟩
    · by_contra hname
      exact hfaults (.inl hname)
    · by_contra hdisk
      exact hfaults (.inr (.inl hdisk))
    · obtain ⟨m, hm, hname, -⟩ := exists_member hroom hp
      by_contra htwice
      exact hfaults (.inr (.inr (.inl ⟨m, hm, hname ▸ Nat.lt_of_not_le htwice⟩)))
    · obtain ⟨m, hm, hname, haccepts⟩ := exists_member hroom hp
      by_contra hrefused
      have hwrong : ¬ m.2 d := fun hd => hrefused ((haccepts d).mpr hd)
      exact hfaults (.inr (.inr (.inr ⟨m, hm, d, hname ▸ hd, hwrong⟩)))

theorem given_iff (hroom : 1 < room) (hname : some "name" ∈ docs.map Prod.fst)
    (hdisk : some "vhd_path" ∈ docs.map Prod.fst) :
    (∀ p ∈ parts, Given docs p.name (fun a d => p.decoder room d = .ok a)
      (p.get unset) (p.get c)) ↔ c.GivenBy docs := by
  have hpresent {name : String} (h : some name ∈ docs.map Prod.fst) (was now : String) :
      Given docs name (fun a d => Decoder.string room d = .ok a) was now ↔
        ∃ d, (some name, d) ∈ docs ∧ IsText now d := by
    simp only [Given, h, not_true, false_and, false_or, Json.Decoder.string_eq_ok, IsText]
  simp only [parts, List.forall_mem_cons, List.not_mem_nil, false_imp_iff, implies_true, and_true]
  rw [hpresent hname, hpresent hdisk]
  simp only [Json.Decoder.string_eq_ok, Json.Decoder.bool_eq_ok, Json.Decoder.uint32_eq_ok,
    Json.Decoder.uint64_eq_ok, transport_eq_ok hroom]
  constructor
  · rintro ⟨hname, hgeneration, hdisk, hswitch, hprocessors, hmemory, hboot, htransport⟩
    exact ⟨hname, hdisk, hgeneration, hswitch, hprocessors, hmemory, hboot, htransport⟩
  · rintro ⟨hname, hdisk, hgeneration, hswitch, hprocessors, hmemory, hboot, htransport⟩
    exact ⟨hname, hgeneration, hdisk, hswitch, hprocessors, hmemory, hboot, htransport⟩

-- ---------------------------------------------------------------------------
-- Texts
-- ---------------------------------------------------------------------------

/-- The text is one object with these members, as JSON goes. -/
structure IsObject (s : Text.Source) (docs : Docs) : Prop where
  document : ∃ rest, Json.readValue s = (.object docs, rest) ∧
    (Json.skipSpace rest).isEmpty = true
  members : ∀ m ∈ docs, m.1.isSome = true ∧ m.2.intact = true

theorem IsObject.run_iff_walk (h : IsObject s docs) : decoder.run s = .ok c ↔
    Walk (parts.map Decoder.Part.field) (Json.depthLimit - 1) [] unset docs c := by
  obtain ⟨rest, hread, hrest⟩ := h.document
  rw [Json.Decoder.run_eq_ok, hread]
  simp only [hrest, and_true]
  rw [decoder, fields_eq, Json.Decoder.struct_object_eq_ok (by decide)]

theorem IsObject.run_eq_ok (h : IsObject s docs) :
    decoder.run s = .ok c ↔ ¬ Faulty docs ∧ c.GivenBy docs := by
  have hroom : 1 < Json.depthLimit - 1 := by decide
  rw [h.run_iff_walk, Json.Decoder.walk_iff lawful h.members, fit_iff hroom]
  refine and_congr_right fun hfaults => given_iff hroom ?_ ?_
  · by_contra hname
    exact hfaults (.inl hname)
  · by_contra hdisk
    exact hfaults (.inr (.inl hdisk))

theorem IsObject.exists_ok (h : IsObject s docs) (hfaults : ¬ Faulty docs) :
    ∃ c, decoder.run s = .ok c := by
  have hroom : 1 < Json.depthLimit - 1 := by decide
  obtain ⟨c, hc⟩ := ((fit_iff hroom).mpr hfaults).exists_walk h.members unset
  exact ⟨c, h.run_iff_walk.mpr hc⟩

theorem IsObject.run_eq_error (h : IsObject s docs) :
    (∃ e, decoder.run s = .error e) ↔ Faulty docs := by
  constructor
  · rintro ⟨e, he⟩
    by_contra hfaults
    obtain ⟨c, hc⟩ := h.exists_ok hfaults
    cases he.symm.trans hc
  · intro hfaults
    cases hrun : decoder.run s with
    | error e => exact ⟨e, rfl⟩
    | ok c => exact absurd hfaults (h.run_eq_ok.mp hrun).1

theorem isObject_render (h : (Doc.object docs).Writable) :
    IsObject (.ofString (Doc.object docs).render) docs where
  document := ⟨[], Json.readValue_render h, rfl⟩
  members := Doc.WritableMembers.intact h

-- ---------------------------------------------------------------------------
-- Written parameters
-- ---------------------------------------------------------------------------

theorem isNatural_nat (n : Nat) : IsNatural n (.nat n) :=
  ⟨_, rfl, ⟨rfl, rfl⟩, rfl, Text.Numeral.value_digits (by decide) n⟩

theorem isTransport_name (t : Transport) : IsTransport t (.text t.name) := by
  refine ⟨t.name, .inl rfl, ?_⟩
  cases t with
  | _ => decide

theorem writable_toDoc (c : Creation) : c.toDoc.Writable := by
  have hnumber (n : Nat) : (Doc.nat n).Writable := Json.Literal.wellFormed_ofNat n
  simp only [toDoc, Doc.fields, Doc.text, List.map_cons, List.map_nil, Doc.Writable,
    Doc.WritableMembers, hnumber, Option.isSome_some, and_true]

theorem runString_render (c : Creation) : decoder.runString c.toDoc.render = .ok c := by
  have hroom : 1 < Json.depthLimit - 1 := by decide
  have htext (set : Creation → String → Creation) (name : String) (required : Bool)
      (x : Creation) (s : String) :
      (Decoder.Field.of name required Decoder.string set).read (Json.depthLimit - 1) (.text s) x =
        .ok (set x s) := rfl
  have hnarrow (set : Creation → UInt32 → Creation) (name : String) (x : Creation) (w : UInt32) :
      (Decoder.Field.of name false Decoder.uint32 set).read (Json.depthLimit - 1)
        (.nat w.toNat) x = .ok (set x w) :=
    Json.Decoder.read_of_eq_ok.mpr ⟨w, Json.Decoder.uint32_eq_ok.mpr (isNatural_nat _), rfl⟩
  have hwide (set : Creation → UInt64 → Creation) (name : String) (x : Creation) (w : UInt64) :
      (Decoder.Field.of name false Decoder.uint64 set).read (Json.depthLimit - 1)
        (.nat w.toNat) x = .ok (set x w) :=
    Json.Decoder.read_of_eq_ok.mpr ⟨w, Json.Decoder.uint64_eq_ok.mpr (isNatural_nat _), rfl⟩
  have htransport (set : Creation → Transport → Creation) (name : String) (x : Creation)
      (t : Transport) :
      (Decoder.Field.of name false (Decoder.choice Transport.names) set).read
        (Json.depthLimit - 1) (.text t.name) x = .ok (set x t) :=
    Json.Decoder.read_of_eq_ok.mpr ⟨t, (transport_eq_ok hroom).mpr (isTransport_name t), rfl⟩
  have hdone : ∀ f ∈ fields, f.required = true → f.name ∈ ["enhanced_session_transport",
      "secure_boot", "memory_startup_bytes", "processor_count", "switch_name", "vhd_path",
      "generation", "name"] := by decide
  refine (isObject_render (writable_toDoc c)).run_iff_walk.mpr ?_
  simp only [List.map_cons, List.map_nil]
  exact .known rfl (by decide) (htext ..) <| .known rfl (by decide) (hnarrow ..) <|
    .known rfl (by decide) (htext ..) <| .known rfl (by decide) (htext ..) <|
    .known rfl (by decide) (hnarrow ..) <| .known rfl (by decide) (hwide ..) <|
    .known rfl (by decide) rfl <| .known rfl (by decide) (htransport ..) <| .done hdone

/-- Written parameters are read again. An object is read as the parameters of its name
and disk with their defaults, in which the given fields are replaced, unless a member is
missing, comes twice or has a document of another type. -/
theorem parameters_read_as_given :
    (∀ c : Creation, decoder.runString c.toDoc.render = .ok c) ∧
    ∀ (s : Text.Source) (docs : Docs), IsObject s docs →
      (∀ c, decoder.run s = .ok c ↔ ¬ Faulty docs ∧ c.GivenBy docs) ∧
      (¬ Faulty docs → ∃ c, decoder.run s = .ok c) ∧
      ((∃ e, decoder.run s = .error e) ↔ Faulty docs) :=
  ⟨runString_render, fun _ _ h => ⟨fun _ => h.run_eq_ok, h.exists_ok, h.run_eq_error⟩⟩

def mixedText : String :=
  "\x7b \"enhanced_session_transport\": \x7b\"hvsocket\": null\x7d, \"vhd_path\": \"dev.vhdx\",
    \"colour\": [1.5], \"processor_count\": 4, \"name\": \"d\\u0065v\" \x7d"

/-- Out of order, with an unknown member between and the transport as an object. -/
def mixedDocs : Docs :=
  [(some "enhanced_session_transport", .object [(some "hvsocket", .null)]),
    (some "vhd_path", .text "dev.vhdx"),
    (some "colour", .array
      [.number { negative := false, whole := [1], fraction := [5], exponent := none }]),
    (some "processor_count", .nat 4), (some "name", .text "dev")]

def mixed : Creation :=
  { new "dev" "dev.vhdx" with processorCount := 4, transport := .hvSocket }

theorem isObject_mixed : IsObject (.ofString mixedText) mixedDocs where
  document := by
    have hread : Json.readValue (.ofString mixedText) = (.object mixedDocs, []) := by cbv
    exact ⟨[], hread, rfl⟩
  members := by decide

theorem not_faulty_mixed : ¬ Faulty mixedDocs := by
  have habsent {name : String} {d : Doc} (h : some name ∉ mixedDocs.map Prod.fst) :
      (some name, d) ∉ mixedDocs := fun hd => h (List.mem_map_of_mem hd)
  rintro (hname | hdisk | ⟨m, hm, htwice⟩ | ⟨m, hm, d, hd, hwrong⟩)
  · exact hname (by decide)
  · exact hdisk (by decide)
  · revert m
    decide
  · refine hwrong ?_
    simp only [members, List.mem_cons, List.not_mem_nil, or_false] at hm
    obtain rfl | rfl | rfl | rfl | rfl | rfl | rfl | rfl := hm
    · obtain rfl : d = .text "dev" := by simpa [mixedDocs] using hd
      exact ⟨_, rfl⟩
    · exact absurd hd (habsent (by decide))
    · obtain rfl : d = .text "dev.vhdx" := by simpa [mixedDocs] using hd
      exact ⟨_, rfl⟩
    · exact absurd hd (habsent (by decide))
    · obtain rfl : d = .nat 4 := by simpa [mixedDocs] using hd
      exact ⟨4, by decide, isNatural_nat 4⟩
    · exact absurd hd (habsent (by decide))
    · exact absurd hd (habsent (by decide))
    · obtain rfl : d = .object [(some "hvsocket", .null)] := by simpa [mixedDocs] using hd
      exact ⟨.hvSocket, "hvsocket", .inr rfl, by decide⟩

theorem parameters_read_as_given_mixed :
    IsObject (.ofString mixedText) mixedDocs ∧ decoder.runString mixedText = .ok mixed := by
  refine ⟨isObject_mixed, ((parameters_read_as_given.2 _ _ isObject_mixed).1 _).mpr
    ⟨not_faulty_mixed, ?_⟩⟩
  have hdefault {α : Type} {name : String} {stands : α → Doc → Prop} (a : α)
      (h : some name ∉ mixedDocs.map Prod.fst) : Given mixedDocs name stands a a := .inl ⟨h, rfl⟩
  exact {
    name := ⟨.text "dev", by simp [mixedDocs], rfl⟩
    diskPath := ⟨.text "dev.vhdx", by simp [mixedDocs], rfl⟩
    generation := hdefault 2 (by decide)
    switchName := hdefault "Default Switch" (by decide)
    processorCount := .inr ⟨_, by simp [mixedDocs], isNatural_nat 4⟩
    memoryStartup := hdefault 0 (by decide)
    secureBoot := hdefault true (by decide)
    transport := .inr ⟨_, by simp [mixedDocs], "hvsocket", .inr rfl, by decide⟩ }

end Creation

end GuestControl.Machine
