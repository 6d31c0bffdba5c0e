import GuestControl.Proofs.Shell.FailClosed
import Mathlib

/-!
# The shapes of a collection

The shell prints a collection as an array, a collection of one element as the bare
element and an empty one as null or not at all, and any of these may stand inside
objects with the members `value` and `Count`. What is decoded does not depend on the
shape: the records and the errors are those that the collections hold, in their order.
-/

namespace GuestControl.Shell

open Json (Doc Fault Decoder)
open Envelope (flatten flattenValue recordOf?)

-- ---------------------------------------------------------------------------
-- Collections
-- ---------------------------------------------------------------------------

abbrev Members := List (String × Json)

def IsWrapper (ms : Members) : Prop :=
  ms.length = 2 ∧ SortedMap.contains ms "Count" = true ∧ SortedMap.contains ms "value" = true

/-- A value that is neither null nor a collection of other values. -/
def IsScalar : Json → Prop
  | .bool _ | .number _ | .string _ => True
  | .null | .array _ | .object _ => False

inductive Holds : Json → List Json → Prop
  | null : Holds .null []
  | array : Holds (.array items) items
  | bare : ¬ IsWrapper o → Holds (.object o) [.object o]
  | scalar : IsScalar j → Holds j [j]
  | wrapped : IsWrapper ms → SortedMap.find? ms "value" = some content → Holds content items →
      Holds (.object ms) items

inductive Picks : List Json → List Members → Prop
  | nil : Picks [] []
  | object : Picks items rs → Picks (.object o :: items) (o :: rs)
  | other : (∀ o, j ≠ .object o) → Picks items rs → Picks (j :: items) rs

/-- The object describes the error: each of the members `Message` and `HResult` is absent
or says what the error has, and there may be others. -/
structure Describes (o : Members) (e : CommandError) : Prop where
  message : SortedMap.find? o "Message" = none ∧ e.message = "" ∨
    SortedMap.find? o "Message" = some (.string e.message)
  code : SortedMap.find? o "HResult" = none ∧ e.code = 0 ∨
    SortedMap.find? o "HResult" = some (.number (.integer e.code.toInt64))

variable {j content : Json} {items : List Json} {ms o : Members} {rs : List Members}
  {e : CommandError} {es : List CommandError}

theorem flattenValue_eq (h : SortedMap.find? ms "value" = some content) :
    flattenValue ms = flatten content := by
  induction ms with
  | nil => cases h
  | cons m ms ih =>
    obtain ⟨k, j⟩ := m
    rw [flattenValue]
    by_cases hk : k = "value"
    · subst hk
      rw [SortedMap.find?, if_pos rfl] at h
      rw [if_pos rfl, Option.some.inj h]
    · rw [SortedMap.find?, if_neg (Ne.symm hk)] at h
      rw [if_neg hk, ih h]

theorem flatten_wrapped (hms : IsWrapper ms) (h : SortedMap.find? ms "value" = some content) :
    flatten (.object ms) = flatten content := by
  rw [flatten]
  exact (if_pos hms).trans (flattenValue_eq h)

theorem flatten_bare (ho : ¬ IsWrapper o) : flatten (.object o) = [.object o] := by
  rw [flatten]
  exact if_neg ho

/-- Every value has a shape, and flattening gives what it holds. -/
theorem flatten_holds (j : Json) : Holds j (flatten j) := by
  refine Envelope.flatten.induct (fun j => Holds j (flatten j))
    (fun ms => ∀ content, SortedMap.find? ms "value" = some content →
      Holds content (flatten content))
    ?null ?array ?wrapped ?bare ?scalar ?nil ?value ?other j
  case null => exact .null
  case array => exact fun items => .array
  case wrapped =>
    intro ms hms ih
    obtain ⟨content, hcontent⟩ := Option.isSome_iff_exists.mp hms.2.2
    rw [flatten_wrapped hms hcontent]
    exact .wrapped hms hcontent (ih content hcontent)
  case bare =>
    intro ms hms
    rw [flatten_bare hms]
    exact .bare hms
  case scalar =>
    intro j hnull harray hobject
    cases j with
    | null => exact (hnull rfl).elim
    | array items => exact (harray items rfl).elim
    | object ms => exact (hobject ms rfl).elim
    | _ => exact .scalar trivial
  case nil => exact nofun
  case value =>
    intro j ms ih content hcontent
    rw [SortedMap.find?, if_pos rfl] at hcontent
    rwa [← Option.some.inj hcontent]
  case other =>
    intro k j ms hk ih content hcontent
    rw [SortedMap.find?, if_neg (Ne.symm hk)] at hcontent
    exact ih content hcontent

theorem Holds.flatten_eq (h : Holds j items) : flatten j = items := by
  induction h with
  | null => rfl
  | array => rfl
  | bare ho => exact flatten_bare ho
  | @scalar j hj =>
    cases j with
    | null | array _ | object _ => exact hj.elim
    | _ => rfl
  | wrapped hms hcontent _ ih => rw [flatten_wrapped hms hcontent, ih]

-- ---------------------------------------------------------------------------
-- Records and errors
-- ---------------------------------------------------------------------------

theorem Picks.filterMap_eq (h : Picks items rs) :
    items.filterMap recordOf? = rs.map .ofJsonMembers := by
  induction h with
  | nil => rfl
  | @object _ _ o _ ih =>
    have hsome : recordOf? (.object o) = some (.ofJsonMembers o) := rfl
    rw [List.filterMap_cons_some hsome, ih, List.map_cons]
  | @other j _ _ hj _ ih =>
    have hnone : recordOf? j = none := by
      cases j with
      | object o => exact absurd rfl (hj o)
      | _ => rfl
    rw [List.filterMap_cons_none hnone, ih]

theorem codeOf_toInt64 (code : Int32) :
    CommandError.codeOf (.number (.integer code.toInt64)) = some code := by
  have hint : code.toInt64.toInt = code.toInt := Int32.toInt_toInt64 code
  have hlow := code.le_toInt
  have hhigh := code.toInt_lt
  simp only [CommandError.codeOf, Json.Number.int?, Option.bind_some, hint, Word.int32?]
  rw [if_pos ⟨by omega, by omega⟩, Int32.ofInt_toInt]

theorem Describes.ofJson?_eq (h : Describes o e) : CommandError.ofJson? (.object o) = some e := by
  obtain ⟨message, code⟩ := e
  obtain ⟨⟨hmessage, rfl⟩ | hmessage, ⟨hcode, rfl⟩ | hcode⟩ := h
  · simp [CommandError.ofJson?, hmessage, hcode]
  · simp [CommandError.ofJson?, hmessage, hcode, codeOf_toInt64]
  · simp [CommandError.ofJson?, hmessage, hcode, CommandError.messageOf]
  · simp [CommandError.ofJson?, hmessage, hcode, CommandError.messageOf, codeOf_toInt64]

theorem mapM_of_describes
    (h : List.Forall₂ (fun j e => ∃ o, j = .object o ∧ Describes o e) items es) :
    items.mapM CommandError.ofJson? = some es := by
  induction h with
  | nil => rfl
  | cons hj _ ih =>
    obtain ⟨o, rfl, ho⟩ := hj
    rw [List.mapM_cons, ho.ofJson?_eq, ih]
    rfl

-- ---------------------------------------------------------------------------
-- The printed object
-- ---------------------------------------------------------------------------

theorem ofMembers?_cons {room : Nat} {m : Option String × Doc} {docs : List (Option String × Doc)}
    (h : Json.ofMembers? room (m :: docs) = some ms) :
    ∃ k d j rest, m = (some k, d) ∧ Json.ofDoc? room d = some j ∧
      Json.ofMembers? room docs = some rest ∧ ms = (k, j) :: rest := by
  obtain ⟨key, d⟩ := m
  cases key with
  | none => cases h
  | some k =>
    simp only [Json.ofMembers?] at h
    split at h
    · rename_i hk hd hrest
      cases hk
      exact ⟨_, _, _, _, rfl, hd, hrest, (Option.some.inj h).symm⟩
    · cases h

mutual

theorem intact_of_ofDoc? {room : Nat} {j : Json} :
    (d : Doc) → Json.ofDoc? room d = some j → d.intact = true
  | .null, _ | .bool _, _ | .number _, _ | .string _, _ => rfl
  | .array items, h => by
    rw [Json.ofDoc?] at h
    split at h
    · cases h
    · obtain ⟨js, hjs, -⟩ := Option.map_eq_some_iff.mp h
      exact intact_of_ofItems? items hjs
  | .object members, h => by
    rw [Json.ofDoc?] at h
    split at h
    · cases h
    · obtain ⟨ms, hms, -⟩ := Option.map_eq_some_iff.mp h
      exact intact_of_ofMembers? members hms
  | .broken, h => by cases h

theorem intact_of_ofItems? {room : Nat} {js : List Json} :
    (items : List Doc) → Json.ofItems? room items = some js → Doc.intactItems items = true
  | [], _ => rfl
  | d :: rest, h => by
    rw [Json.ofItems?] at h
    split at h
    · rename_i hd hrest
      rw [Doc.intactItems, intact_of_ofDoc? d hd, intact_of_ofItems? rest hrest]
      rfl
    · cases h

theorem intact_of_ofMembers? {room : Nat} {ms : List (String × Json)} :
    (members : List (Option String × Doc)) → Json.ofMembers? room members = some ms →
      Doc.intactMembers members = true
  | [], _ => rfl
  | _ :: docs, h => by
    obtain ⟨_, d, _, _, rfl, hd, hdocs, -⟩ := ofMembers?_cons h
    rw [Doc.intactMembers, intact_of_ofDoc? d hd, intact_of_ofMembers? docs hdocs]
    rfl

end

section
variable {σ : Type} {fields : List (Decoder.Field σ)} {f : Decoder.Field σ} {room : Nat}
  {seen : List String} {x y : σ} {key : String} {d : Doc} {docs : List (Option String × Doc)}

theorem struct_object (hroom : 1 < room) : Decoder.struct fields x room (.object docs) =
    Decoder.members fields (room - 1) [] x docs := by
  rw [Decoder.struct, if_neg (Nat.not_le.mpr hroom)]

theorem members_known (hf : fields.find? (·.name = key) = some f) (hunseen : key ∉ seen)
    (hread : f.read room d x = .ok y) : Decoder.members fields room seen x ((some key, d) :: docs) =
      Decoder.members fields room (key :: seen) y docs := by
  rw [Decoder.members, hf]
  simp only [List.contains_eq_mem, hunseen, decide_false, Bool.false_eq_true, if_false, hread]
  rfl

theorem members_unknown (hf : fields.find? (·.name = key) = none) (hd : d.intact = true) :
    Decoder.members fields room seen x ((some key, d) :: docs) =
      Decoder.members fields room seen x docs := by
  rw [Decoder.members, hf]
  exact if_pos hd

end

/-- The members of an envelope are read in any order, and others are passed over. -/
theorem members_fields {room : Nat} {docs : List (Option String × Doc)} {seen : List String}
    {env : Envelope} (h : Json.ofMembers? room docs = some ms) (hnames : (ms.map Prod.fst).Nodup)
    (hseen : ∀ name ∈ seen, name ∉ ms.map Prod.fst) :
    Decoder.members Envelope.fields room seen env docs =
      .ok { records := (SortedMap.find? ms "Records").getD env.records
            errors := (SortedMap.find? ms "Errors").getD env.errors } := by
  induction docs generalizing ms seen env with
  | nil =>
    obtain rfl := Option.some.inj h
    rfl
  | cons m docs ih =>
    obtain ⟨k, d, j, rest, rfl, hd, hdocs, rfl⟩ := ofMembers?_cons h
    obtain ⟨hk, hrest⟩ := List.nodup_cons.mp hnames
    have hunseen : k ∉ seen := fun hmem => hseen k hmem List.mem_cons_self
    have hless (name : String) (hmem : name ∈ seen) : name ∉ rest.map Prod.fst :=
      fun hname => hseen name hmem (List.mem_cons_of_mem _ hname)
    have hmore (name : String) (hmem : name ∈ k :: seen) : name ∉ rest.map Prod.fst := by
      rcases List.mem_cons.mp hmem with rfl | hmem
      · exact hk
      · exact hless name hmem
    have hread (name : String) (set : Envelope → Json → Envelope) :
        (Decoder.Field.of name false Decoder.value set).read room d env = .ok (set env j) := by
      simp only [Decoder.Field.of, Decoder.value, hd]
      rfl
    have hlast : SortedMap.find? rest k = none := SortedMap.find?_eq_none fun m hm hname =>
      hk (List.mem_map.mpr ⟨m, hm, hname⟩)
    have hother {name : String} (hne : name ≠ k) :
        SortedMap.find? ((k, j) :: rest) name = SortedMap.find? rest name := if_neg hne
    by_cases hrecords : k = "Records"
    · subst hrecords
      have herrors : SortedMap.find? (("Records", j) :: rest) "Errors" =
        SortedMap.find? rest "Errors" := hother (by decide)
      rw [members_known rfl hunseen (hread _ _), ih hdocs hrest hmore, hlast, herrors]
      rfl
    by_cases herrors : k = "Errors"
    · subst herrors
      rw [members_known rfl hunseen (hread _ _), ih hdocs hrest hmore, hlast,
        hother (Ne.symm hrecords)]
      rfl
    · have hunknown : Envelope.fields.find? (·.name = k) = none := by
        simp [Envelope.fields, Decoder.Field.of, Ne.symm hrecords, Ne.symm herrors]
      rw [members_unknown hunknown (intact_of_ofDoc? d hd), ih hdocs hrest hless,
        hother (Ne.symm hrecords), hother (Ne.symm herrors)]

/-- The text is one object with these members in the order of the text, no two of one name. -/
structure IsObject (text : String) (ms : Members) : Prop where
  document : ∃ docs rest, Json.readValue (.ofString text) = (.object docs, rest) ∧
    (Json.skipSpace rest).isEmpty = true ∧ Json.ofMembers? (Json.depthLimit - 1) docs = some ms
  names : (ms.map Prod.fst).Nodup

theorem IsObject.runString {text : String} (h : IsObject text ms) :
    Envelope.decoder.runString text =
      .ok { records := (SortedMap.find? ms "Records").getD .null
            errors := (SortedMap.find? ms "Errors").getD .null } := by
  obtain ⟨docs, rest, hread, hrest, hms⟩ := h.document
  have hnone (name : String) (hmem : name ∈ []) : name ∉ ms.map Prod.fst := nomatch hmem
  have hroom : 1 < Json.depthLimit := by decide
  rw [Decoder.runString, Decoder.run, hread, Envelope.decoder]
  simp only [struct_object hroom, members_fields hms h.names hnone, hrest, bind, Except.bind,
    if_true]

/-- The members `Records` and `Errors` hold the records and the errors, in any shapes;
among the records there may be anything that is no object. A member that is absent is
like null. -/
structure Conveys (ms : Members) (rs : List Members) (es : List CommandError) : Prop where
  records : ∃ items, Holds ((SortedMap.find? ms "Records").getD .null) items ∧ Picks items rs
  errors : ∃ items, Holds ((SortedMap.find? ms "Errors").getD .null) items ∧
    List.Forall₂ (fun j e => ∃ o, j = .object o ∧ Describes o e) items es

def conveyed (rs : List Members) (es : List CommandError) : Outcome :=
  { records := rs.map .ofJsonMembers
    errorText := "\n".intercalate (es.map (·.text))
    errorCode := (es.head?.map (·.code)).getD 0 }

theorem decodeOutput_of_conveys {wording : String → String} {printed : String}
    (h : IsObject (Text.trim printed) ms)
    (hms : Conveys ms rs es) : decodeOutput wording printed = .ok (conveyed rs es) := by
  obtain ⟨items, hitems, hrs⟩ := hms.records
  obtain ⟨items', hitems', hes⟩ := hms.errors
  refine decodeOutput_ok.mpr ⟨_, es, h.runString, ?_, ?_⟩
  · rw [Envelope.commandErrors?, hitems'.flatten_eq]
    exact mapM_of_describes hes
  · rw [Envelope.outcome, hitems.flatten_eq, hrs.filterMap_eq]
    rfl

/-- An envelope is decoded to the records and the errors that it conveys, one by one
and in order, whatever the shapes of its collections are. There is an error exactly if
an error is conveyed. Flattening ends on every value with the elements that it holds. -/
theorem decoded_in_any_shape (wording : String → String) :
    (∀ printed ms rs es, IsObject (Text.trim printed) ms → Conveys ms rs es →
      decodeOutput wording printed = .ok (conveyed rs es) ∧
      ((conveyed rs es).hasError = true ↔ es ≠ [])) ∧
    (∀ printed printed' ms ms' rs es, IsObject (Text.trim printed) ms → Conveys ms rs es →
      IsObject (Text.trim printed') ms' → Conveys ms' rs es →
      decodeOutput wording printed' = decodeOutput wording printed) ∧
    ∀ j, ∃ items, flatten j = items ∧ ∀ items', Holds j items' ↔ items' = items := by
  refine ⟨fun printed ms rs es h hms => ⟨decodeOutput_of_conveys h hms, ?_⟩, ?_, fun j => ?_⟩
  · exact @hasError_outcome {} es
  · intro printed printed' ms ms' rs es h hms h' hms'
    rw [decodeOutput_of_conveys h hms, decodeOutput_of_conveys h' hms']
  · refine ⟨_, rfl, fun items => ⟨fun h => h.flatten_eq.symm, ?_⟩⟩
    rintro rfl
    exact flatten_holds j

/-- A record among other output inside a wrapper, and a bare error. -/
def wrappedRecord : String :=
  "\x7b\"Records\":\x7b\"value\":[null,\x7b\"Name\":\"x\"\x7d],\"Count\":2\x7d," ++
    "\"Errors\":\x7b\"HResult\":5,\"Extra\":null\x7d\x7d"

/-- A bare record, and an error in an array inside two wrappers. -/
def wrappedError : String :=
  "\x7b\"Errors\":\x7b\"Count\":1,\"value\":\x7b\"value\":[\x7b\"HResult\":5\x7d]," ++
    "\"Count\":null\x7d\x7d,\"Records\":\x7b\"Name\":\"x\"\x7d\x7d"

theorem isObject_wrappedRecord : IsObject (Text.trim wrappedRecord)
    [("Records", .object [("Count", .number (.integer 2)),
        ("value", .array [.null, .object [("Name", .string "x")]])]),
      ("Errors", .object [("Extra", .null), ("HResult", .number (.integer 5))])] := by
  have hread : Json.readValue (.ofString (Text.trim wrappedRecord)) =
      (.object [(some "Records", .object [(some "value", .array [.null,
          .object [(some "Name", .string (some "x"))]]),
          (some "Count", .number ⟨false, [2], [], none⟩)]),
        (some "Errors", .object [(some "HResult", .number ⟨false, [5], [], none⟩),
          (some "Extra", .null)])], []) := by cbv
  refine ⟨⟨_, _, hread, rfl, ?_⟩, by decide⟩
  cbv

theorem isObject_wrappedError : IsObject (Text.trim wrappedError)
    [("Errors", .object [("Count", .number (.integer 1)), ("value", .object [("Count", .null),
        ("value", .array [.object [("HResult", .number (.integer 5))]])])]),
      ("Records", .object [("Name", .string "x")])] := by
  have hread : Json.readValue (.ofString (Text.trim wrappedError)) =
      (.object [(some "Errors", .object [(some "Count", .number ⟨false, [1], [], none⟩),
          (some "value", .object [(some "value", .array [.object [(some "HResult",
            .number ⟨false, [5], [], none⟩)]]), (some "Count", .null)])]),
        (some "Records", .object [(some "Name", .string (some "x"))])], []) := by cbv
  refine ⟨⟨_, _, hread, rfl, ?_⟩, by decide⟩
  cbv

theorem decoded_in_any_shape_wrapped :
    let wording (text : String) := "no envelope: " ++ text
    decodeOutput wording wrappedRecord = .ok (conveyed [[("Name", .string "x")]] [{ code := 5 }]) ∧
      (conveyed [[("Name", .string "x")]] [{ code := 5 }]).hasError = true ∧
      decodeOutput wording wrappedError = decodeOutput wording wrappedRecord := by
  intro wording
  have hdecoded := (decoded_in_any_shape wording).1
  have hname : ¬ IsWrapper [("Name", .string "x")] := fun h => absurd h.1 (by decide)
  have hextra : ¬ IsWrapper [("Extra", .null), ("HResult", .number (.integer 5))] :=
    fun h => absurd h.2.1 (by decide)
  have hrecord : Picks [.null, .object [("Name", .string "x")]] [[("Name", .string "x")]] :=
    .other (fun _ => Json.noConfusion) (.object .nil)
  have herror : Describes [("Extra", .null), ("HResult", .number (.integer 5))] { code := 5 } :=
    ⟨.inl ⟨rfl, rfl⟩, .inr rfl⟩
  have herror' : Describes [("HResult", .number (.integer 5))] { code := 5 } :=
    ⟨.inl ⟨rfl, rfl⟩, .inr rfl⟩
  obtain ⟨hrun, hhas⟩ := hdecoded _ _ [[("Name", .string "x")]] [{ code := 5 }]
    isObject_wrappedRecord
    ⟨⟨_, .wrapped ⟨rfl, rfl, rfl⟩ rfl .array, hrecord⟩,
      ⟨_, .bare hextra, .cons ⟨_, rfl, herror⟩ .nil⟩⟩
  obtain ⟨hrun', -⟩ := hdecoded _ _ [[("Name", .string "x")]] [{ code := 5 }]
    isObject_wrappedError
    ⟨⟨_, .bare hname, .object .nil⟩,
      ⟨_, .wrapped ⟨rfl, rfl, rfl⟩ rfl (.wrapped ⟨rfl, rfl, rfl⟩ rfl .array),
        .cons ⟨_, rfl, herror'⟩ .nil⟩⟩
  exact ⟨hrun, hhas.mpr (List.cons_ne_nil _ _), hrun'.trans hrun.symm⟩

end GuestControl.Shell
