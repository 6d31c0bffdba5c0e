import GuestControl.Proofs.Crew.Bracket
import GuestControl.Proofs.Operation.Creation
import GuestControl.Proofs.Pipeline.Lexemes

/-!
# Settings go to the machine whose slot is held

The record of a new machine is read twice: its identifier decides on the slot, and the
script of the settings looks the machine up by the same member as it stands. Both come
to the same machine, in whatever way the identifier is written.
-/

namespace GuestControl

open Manager
open Exchange (underSlot)
open Service (Gate)
open Text.Quoted (Unmarked literal literal_of_unmarked unmarked_guid unmarked_of_wordy)
open GuestControl.Task (Bracketed Only)

-- ---------------------------------------------------------------------------
-- The script
-- ---------------------------------------------------------------------------

/-- The text denotes the identifier, and can stand between quotes as it is. -/
structure Denotes (t : String) (id : Guid) : Prop where
  parse : Guid.parse? (Text.trim t) = some id
  unmarked : Unmarked t.toList

theorem denotes_text (id : Guid) : Denotes id.text id where
  parse := by rw [Guid.trim_text, Guid.parse?_text]
  unmarked := unmarked_guid id

theorem denotes_of_parse {s : String} {id : Guid}
    (h : Guid.parseChars? (Text.trimChars s.toList) = some id) : Denotes s id where
  parse := by rw [Guid.parse?, Text.trim, String.toList_ofList, h]
  unmarked := by
    intro c hc
    obtain hblank | hc := Text.blank_or_mem_trimChars hc
    · have hmarks : Text.Quoted.marks.any Text.isBlank = false := by decide
      rw [Text.Quoted.isMark, List.contains_eq_mem, decide_eq_false_iff_not]
      exact fun hmark => List.any_eq_false.mp hmarks c hmark hblank
    · exact unmarked_of_wordy (Guid.isWordy_of_parseChars? h) c hc

def lookUpBy (t : String) : String := "(Get-VM -Id '" ++ t ++ "')"

theorem lookUp_of_read {r : Record} {m : Machine} (hread : Machine.schema.read r = .ok m)
    (hid : m.id ≠ .nil) : ∃ t, Denotes t m.id ∧ Argument.lookUp r = lookUpBy t := by
  obtain ⟨-, hnil⟩ | ⟨v, hv, hconvert⟩ := (Machine.readFrom hread).id
  · exact absurd hnil hid
  · obtain ⟨hget, hnull⟩ := Schema.given_eq_some.mp hv
    cases v with
    | guid id =>
      obtain rfl := Except.ok.inj hconvert
      refine ⟨m.id.text, denotes_text m.id, ?_⟩
      rw [Argument.lookUp, show r.get? Member.id = _ from hget]
      rfl
    | string s =>
      simp only [Value.toGuid] at hconvert
      split at hconvert
      · exact absurd (Except.ok.inj hconvert).symm hid
      · have hdenotes := denotes_of_parse (Value.expecting_eq_ok.mp hconvert)
        refine ⟨s, hdenotes, ?_⟩
        rw [Argument.lookUp, show r.get? Member.id = _ from hget]
        apply String.toList_injective
        simp [lookUpBy, ← literal_of_unmarked hdenotes.unmarked, Cmdlet.getMachine, Parameter.id]
    | null => cases hnull
    | bool | int | uint | float | record | list => cases hconvert

def Machine.Creation.settingsScript (c : Creation) (m : Machine) (machine : String) : String :=
  "Set-VM -VM " ++ machine ++ " -ProcessorCount " ++
    Text.Numeral.decimal c.processorCount.toNat ++ " -EnhancedSessionTransportType '" ++
    c.transport.name ++ "'" ++
    (if m.memoryMinimum < c.memoryStartup ∧ c.memoryStartup < m.memoryMaximum then
      " -MemoryStartupBytes " ++ Text.Numeral.decimal c.memoryStartup.toNat
    else "") ++
    if c.generation = 2 then
      "; Set-VMFirmware -VM " ++ machine ++ " -EnableSecureBoot '" ++
        (if c.secureBoot then "On" else "Off") ++ "'"
    else ""

theorem script_settingsPipeline (c : Machine.Creation) (r : Record) (m : Machine) :
    (settingsPipeline c r m).script .separate = c.settingsScript m (Argument.lookUp r) := by
  have htransport : literal c.transport.name = "'" ++ c.transport.name ++ "'" := by
    cases c.transport with
    | _ => rfl
  have hboot : literal (if c.secureBoot then "On" else "Off") =
      "'" ++ (if c.secureBoot then "On" else "Off") ++ "'" := by
    cases c.secureBoot with
    | _ => rfl
  rw [settingsPipeline_eq]
  unfold Machine.Creation.settings Machine.Creation.settingsScript
  apply String.toList_injective
  by_cases hmemory : m.memoryMinimum < c.memoryStartup ∧ c.memoryStartup < m.memoryMaximum
  all_goals
    by_cases hgeneration : c.generation = 2
    all_goals
      simp [Pipeline.script, Command.script, Argument.script, htransport, hboot, hmemory,
        hgeneration, Mode.separator, String.join]

-- ---------------------------------------------------------------------------
-- The slot
-- ---------------------------------------------------------------------------

def SettledUnder (c : Machine.Creation) (held : Option Guid) (q : Request) : Prop :=
  ∀ r m mode, Machine.schema.read r = .ok m → q = .execute (settingsPipeline c r m) mode →
    held = some m.id

variable {c : Machine.Creation} {g : Gate} {r r' : Record} {m m' : Machine} {held : Option Guid}

theorem settingsPipeline_ne_create : createPipeline c ≠ settingsPipeline c r m := by
  intro h
  rw [settingsPipeline_eq] at h
  have hname : "New-VM" = "Set-VM" := (List.cons.inj (congrArg Pipeline.names h)).1
  exact absurd hname (by decide)

theorem record_of_settingsPipeline (h : settingsPipeline c r m = settingsPipeline c r' m') :
    r = r' := by
  rw [settingsPipeline_eq, settingsPipeline_eq] at h
  have hcommand := (List.cons.inj (congrArg Pipeline.commands h)).1
  have hargument := (List.cons.inj (congrArg Command.arguments hcommand)).1
  exact Argument.reference.inj (Prod.mk.inj hargument).2

theorem settledUnder_of_isService {q : Request} (hq : q.IsService) : SettledUnder c held q := by
  rintro r m mode - rfl
  exact hq.elim

theorem settledUnder_create : SettledUnder c held (.execute (createPipeline c) .separate) := by
  intro r m mode _ h
  exact absurd (Request.execute.inj h).1 settingsPipeline_ne_create

theorem settledUnder_settings (hread : Machine.schema.read r = .ok m) :
    SettledUnder c (some m.id) (.execute (settingsPipeline c r m) .separate) := by
  intro r' m' mode hread' h
  obtain rfl := record_of_settingsPipeline (Request.execute.inj h).1
  obtain rfl := Except.ok.inj (hread.symm.trans hread')
  rfl

theorem bracketed_runChecked : Bracketed (SettledUnder c) none
    (runChecked "create virtual machine" none (createPipeline c) .separate) := by
  refine Bracketed.call_bind (.ask trivial settledUnder_create fun e => ?_) fun o => ?_
  · cases e with
    | _ => exact .done _
  · split
    · exact .done _
    · exact .done _

theorem only_applySettings (p : Pipeline) :
    Only (· = .execute p .separate) (applySettings p) := by
  refine .ask rfl fun e => ?_
  cases e with
  | _ => exact .done _

theorem bracketed_create (c : Machine.Creation) (g : Gate) :
    Bracketed (SettledUnder c) none (Manager.create g c) := by
  refine Bracketed.call_bind ?_ fun _ => Bracketed.call_bind bracketed_runChecked fun o => ?_
  · refine Bracketed.bind (Task.bracketed_of_only Gate.only_drive fun q hq =>
      ⟨hq.isSlotless, settledUnder_of_isService hq⟩) fun checked => ?_
    rcases checked with e | u
    · exact .done _
    · exact .done _
  · cases o.first? with
    | none => exact .done _
    | some r =>
      dsimp only
      cases hread : Machine.schema.read r with
      | error e => exact .done _
      | ok m =>
        show Bracketed _ none ((applySettings (settingsPipeline c r m)).holding m.id >>= fun _ =>
          Call.pure m : Call Machine)
        refine Bracketed.call_bind (Task.bracketed_holding (only_applySettings _) ?_) fun _ =>
          .done _
        rintro q rfl
        exact ⟨trivial, settledUnder_settings hread⟩

-- ---------------------------------------------------------------------------
-- Script and slot together
-- ---------------------------------------------------------------------------

/-- The machine `m`, as `r` was read, gets its settings and no other does. -/
structure Machine.Creation.Settles (c : Creation) (r : Record) (m : Machine) : Prop where
  /-- Each command of the settings is for the machine that is looked up by its identifier. -/
  script : ∃ t, Denotes t m.id ∧
    (settingsPipeline c r m).script .separate = c.settingsScript m (lookUpBy t)
  /-- The pipeline that follows if `r` was returned is that of the settings, under the slot. -/
  follows : ∀ {σ : Type} (world : Task.World σ) (g : Gate) (w : σ) (e : Execution)
      (more : List Exchange), (g.drive.run world w).1 = .ok () →
    Task.trace world ((Operation.create c).call g) w =
      g.drive.trace world w ++ ⟨.execute (createPipeline c) .separate, e⟩ :: more →
    e.Makes r m → ∃ e', more = underSlot (some m.id)
      [⟨.execute (settingsPipeline c r m) .separate, e'⟩]
  /-- While the settings are applied, the thread holds the slot of the machine, and it alone,
  whatever else the crew does. -/
  held : ∀ (g : Gate) (calls : List (Call Answer)) (t : Nat) (crew : Crew (Ending Answer))
      (mode : Mode) (next : Execution → Call Answer),
    calls[t]? = some ((Operation.create c).call g) →
    Crew.Becomes ⟨.init calls.length, calls⟩ crew →
    crew.tasks[t]? = some (.ask (.execute (settingsPipeline c r m) mode) next) →
    crew.turnstile.heldBy? t = some m.id ∧ ∀ u, u ≠ t → crew.turnstile.heldBy? u ≠ some m.id

theorem bracketed_call (c : Machine.Creation) (g : Gate) :
    Bracketed (SettledUnder c) none ((Operation.create c).call g) :=
  Bracketed.bind (bracketed_create c g) fun _ => .done _

/-- A new machine with an identifier is settled itself. -/
theorem settles_created (c : Machine.Creation) {r : Record} {m : Machine}
    (hread : Machine.schema.read r = .ok m) (hid : m.id ≠ .nil) : c.Settles r m where
  script := by
    obtain ⟨t, ht, hlookUp⟩ := lookUp_of_read hread hid
    exact ⟨t, ht, by rw [script_settingsPipeline, hlookUp]⟩
  follows world g w e more hpassed htrace hmakes := by
    obtain ⟨xs, htrace', hcourse⟩ := (Operation.create c).course_of_passed hpassed
    obtain ⟨e', more', rfl, hcreation⟩ := hcourse.creation
    obtain ⟨hx, rfl⟩ := List.cons.inj (List.append_cancel_left (htrace.symm.trans htrace'))
    cases hx
    obtain ⟨-, -, e', hmore, -⟩ := hcreation.made r m hmakes
    exact ⟨e', by rw [hmore, settingsPipeline_eq]⟩
  held g calls t crew mode next hcall hbecomes hask := by
    have hheld := hbecomes.allowed hcall (bracketed_call c g) hask trivial r m mode hread rfl
    exact ⟨hheld, fun u hu => hbecomes.holder_unique hheld hu⟩

def repliesWith (r : Record) : (q : Request) → q.Reply
  | .execute .. => .finished { records := [r] }
  | q => q.usual

/-- The identifier has capitals and stands in braces between blanks. While the settings wait
to be applied on thread 0, thread 1 waits for the same machine. -/
theorem settles_created_braces :
    let id : Guid := ⟨List.replicate 32 ⟨10, by decide⟩, List.length_replicate⟩
    let r : Record :=
      ⟨[("Id", .string " \x7bAAAAAAAA-AAAA-AAAA-AAAA-AAAAAAAAAAAA\x7d\n")]⟩
    let c : Machine.Creation := .new "worker" "worker.vhdx"
    let calls : List (Call Answer) :=
      [(Operation.create c).call default, (Operation.pause id).call default]
    (∃ t, Denotes t id ∧ (settingsPipeline c r { id := id }).script .separate =
      c.settingsScript { id := id } (lookUpBy t)) ∧
    ∃ crew, Crew.Becomes ⟨.init 2, calls⟩ crew ∧ crew.turnstile.pending id = 2 ∧
      crew.turnstile.heldBy? 0 = some id ∧ crew.turnstile.heldBy? 1 ≠ some id := by
  intro id r c calls
  have hread : Machine.schema.read r = .ok { id := id } := rfl
  have h := settles_created c hread (by decide)
  have hstart : Crew.Becomes ⟨.init 2, calls⟩ ⟨.init 2, calls⟩ := .refl
  have hmade := ((hstart.reply 0 Request.usual rfl).reply 1 Request.usual rfl).reply 0
    (repliesWith r) rfl
  have hheld := ((hmade.turn 0 (.draw id) rfl).turn 1 (.draw id) rfl).turn 0 .look rfl
  obtain ⟨hzero, hone⟩ := h.held default calls 0 _ _ _ rfl hheld rfl
  exact ⟨h.script, _, hheld, rfl, hzero, hone 1 (by decide)⟩

end GuestControl
