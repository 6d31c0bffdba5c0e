import GuestControl.Proofs.Operation.Course
import GuestControl.Proofs.Record.Reading
import GuestControl.Rehearsal

/-!
# Machines are created as far as it works

A machine is made by the first pipeline. If the record that comes back can be read,
that is the answer, whatever comes of the settings that are applied next. Which
settings these are depends on the limits of the memory that the record states and on
the generation.
-/

namespace GuestControl

open Manager
open Exchange (underSlot)
open Service (Gate)

def Machine.Creation.settings (c : Creation) (r : Record) (minimum maximum : UInt64) : Pipeline :=
  ⟨⟨"Set-VM",
      [("VM", .reference r), ("ProcessorCount", .uint c.processorCount.toUInt64),
        ("EnhancedSessionTransportType", .string c.transport.name)] ++
      if minimum < c.memoryStartup ∧ c.memoryStartup < maximum then
        [("MemoryStartupBytes", .uint c.memoryStartup)]
      else []⟩ ::
    if c.generation = 2 then
      [⟨"Set-VMFirmware", [("VM", .reference r),
        ("EnableSecureBoot", .string (if c.secureBoot then "On" else "Off"))]⟩]
    else []⟩

theorem Manager.settingsPipeline_eq (c : Machine.Creation) (r : Record) (m : Machine) :
    settingsPipeline c r m = c.settings r m.memoryMinimum m.memoryMaximum := by
  unfold settingsPipeline startupMemory Machine.Creation.settings
  by_cases hmemory : m.memoryMinimum < c.memoryStartup ∧ c.memoryStartup < m.memoryMaximum
  all_goals
    by_cases hgeneration : c.generation = 2
    all_goals
      simp only [hmemory, hgeneration, if_true, if_false]
      rfl

/-- The executor has returned, if only with a failure. -/
def Execution.Returned (e : Execution) : Prop := ∀ report, e ≠ .crashed report

/-- The first pipeline has made the machine `m`, and `r` refers to it. -/
structure Execution.Makes (e : Execution) (r : Record) (m : Machine) : Prop where
  finished : ∃ o, e = .finished o ∧ o.errorText = "" ∧ o.records.head? = some r
  read : Machine.schema.read r = .ok m

namespace Operation

variable {c : Machine.Creation} {o : Outcome} {e : Execution} {r : Record} {m : Machine}
  {xs : List Exchange} {ending : Ending Answer}

theorem settled_of_returned (h : e.Returned) : settled m e = .value (.machine m) := by
  cases e with
  | crashed report => exact absurd rfl (h report)
  | _ => rfl

theorem sequel_made (hfirst : o.records.head? = some r) (hread : Machine.schema.read r = .ok m) :
    (create c).sequel o = .settings (c.settings r m.memoryMinimum m.memoryMaximum) m := by
  simp [sequel, Outcome.first?, hfirst, hread, settingsPipeline_eq]

theorem sequel_unmade (h : ∀ r m, o.records.head? = some r → Machine.schema.read r ≠ .ok m) :
    ∃ error, (create c).sequel o = .done (.error error) := by
  cases hfirst : o.records.head? with
  | none => exact ⟨_, by rw [sequel, Outcome.first?, hfirst]⟩
  | some r =>
    cases hread : Machine.schema.read r with
    | ok m => exact absurd hread (h r m hfirst)
    | error error => exact ⟨error, by simp [sequel, Outcome.first?, hfirst, hread]⟩

/-- What comes of a creation whose first pipeline came to `e`: the exchanges that follow,
and the ending. -/
structure Creation (c : Machine.Creation) (e : Execution) (more : List Exchange)
    (ending : Ending Answer) : Prop where
  made : ∀ r m, e.Makes r m →
    Schema.Reads r "MemoryMinimum" Value.toUInt64 0 m.memoryMinimum ∧
    Schema.Reads r "MemoryMaximum" Value.toUInt64 0 m.memoryMaximum ∧
    ∃ e', more = underSlot (some m.id)
        [⟨.execute (c.settings r m.memoryMinimum m.memoryMaximum) .separate, e'⟩] ∧
      (e'.Returned → ending = .value (.machine m))
  unmade : (∀ r m, ¬ e.Makes r m) →
    more = [] ∧ (e.Returned → ∃ error, ending = .error error)

theorem Course.creation (h : (create c).Course xs ending) : ∃ (e : Execution)
    (more : List Exchange), xs = ⟨.execute (createPipeline c) .separate, e⟩ :: more ∧
      Creation c e more ending := by
  obtain ⟨e, more, hxs, hstops, hgoes⟩ := h.split
  refine ⟨e, more, hxs, ?_, ?_⟩
  · rintro r m ⟨⟨o, rfl, htext, hfirst⟩, hread⟩
    have hfollows := hgoes o rfl (stops?_of_no_text htext)
    rw [sequel_made hfirst hread] at hfollows
    have hfrom := Machine.readFrom hread
    cases hfollows
    exact ⟨hfrom.memoryMinimum, hfrom.memoryMaximum, _, rfl, settled_of_returned⟩
  · intro hunmade
    cases e with
    | failed x =>
      obtain ⟨hmore, hending⟩ := hstops _ rfl
      exact ⟨hmore, fun _ => ⟨_, hending⟩⟩
    | crashed report => exact ⟨(hstops _ rfl).1, fun hreturned => absurd rfl (hreturned report)⟩
    | finished o =>
      by_cases htext : o.errorText = ""
      · have hfollows := hgoes o rfl (stops?_of_no_text htext)
        obtain ⟨error, hsequel⟩ := sequel_unmade (c := c) (o := o) fun r m hfirst hread =>
          hunmade r m ⟨⟨o, rfl, htext, hfirst⟩, hread⟩
        rw [hsequel] at hfollows
        cases hfollows
        exact ⟨rfl, fun _ => ⟨error, rfl⟩⟩
      · obtain ⟨hmore, hending⟩ := hstops _ (stops?_of_text rfl htext)
        exact ⟨hmore, fun _ => ⟨_, hending⟩⟩

/-- If there was a second pipeline, what it came to does not count. -/
theorem Ends.settings_irrelevant {e₁ e₂ : Execution} {ending₁ ending₂ : Ending Answer}
    (h₁ : (create c).Ends [.finished o, e₁] ending₁)
    (h₂ : (create c).Ends [.finished o, e₂] ending₂) (hreturned₁ : e₁.Returned)
    (hreturned₂ : e₂.Returned) : ending₁ = ending₂ := by
  obtain ⟨_, _, _, hsequel, -⟩ | ⟨_, m, hsequel₁, rfl⟩ := h₁.of_two
  · obtain ⟨_, hop, -⟩ | ⟨_, _, hop, -⟩ | ⟨_, _, hop, -⟩ := sequel_query hsequel
    · cases hop
    · cases hop
    · cases hop
  · obtain ⟨_, _, _, hsequel₂, -⟩ | ⟨_, m', hsequel₂, rfl⟩ := h₂.of_two
    · cases hsequel₁.symm.trans hsequel₂
    · cases hsequel₁.symm.trans hsequel₂
      rw [settled_of_returned hreturned₁, settled_of_returned hreturned₂]

/-- A machine that was made and can be read is the answer, and its settings are applied
under its slot. It is the answer too if they cannot be applied, so two runs that differ
in that alone end the same. Else there is an error and nothing is set. -/
theorem created_best_effort {σ : Type} {c : Machine.Creation} {g : Gate} {world : Task.World σ}
    {w : σ} (hpassed : (g.drive.run world w).1 = .ok ()) :
    (∃ (e : Execution) (more : List Exchange),
      Task.trace world ((create c).call g) w = g.drive.trace world w ++
        ⟨.execute (createPipeline c) .separate, e⟩ :: more ∧
      Creation c e more (Task.run world ((create c).call g) w).1) ∧
    ∀ o e₁ e₂ ending₁ ending₂, (create c).Ends [.finished o, e₁] ending₁ →
      (create c).Ends [.finished o, e₂] ending₂ → e₁.Returned → e₂.Returned →
      ending₁ = ending₂ := by
  constructor
  · obtain ⟨xs, htrace, hcourse⟩ := (create c).course_of_passed hpassed
    obtain ⟨e, more, rfl, hcreation⟩ := hcourse.creation
    exact ⟨e, more, htrace, hcreation⟩
  · intro o e₁ e₂ ending₁ ending₂ h₁ h₂
    exact h₁.settings_irrelevant h₂

/-- The startup memory is no more than the machine's minimum, so it is not set. The
settings fail. -/
theorem created_best_effort_minimum :
    let c : Machine.Creation :=
      { name := "worker", diskPath := "worker.vhdx", generation := 1, memoryStartup := 512 }
    let r : Record := ⟨[("MemoryMaximum", .uint 1024), ("MemoryMinimum", .uint 512)]⟩
    let w : Rehearsal :=
      { executions := [.finished { records := [r] }, .failed (.undecodable "")] }
    ((default : Gate).drive.run Rehearsal.world w).1 = .ok () ∧
      (Task.executions Rehearsal.world ((create c).call default) w).map (·.1) =
        [(createPipeline c, .separate),
          (⟨[⟨"Set-VM", [("VM", .reference r), ("ProcessorCount", .uint 1),
            ("EnhancedSessionTransportType", .string "VMBus")]⟩]⟩, .separate)] ∧
      (Task.run Rehearsal.world ((create c).call default) w).1 =
        .value (.machine { memoryMinimum := 512, memoryMaximum := 1024 }) := by
  intro c r w
  have hpassed : ((default : Gate).drive.run Rehearsal.world w).1 = .ok () := rfl
  obtain ⟨⟨e, more, htrace, hcreation⟩, -⟩ := created_best_effort (c := c) hpassed
  have hexecutions := congrArg (List.filterMap Exchange.execution?) htrace
  obtain ⟨he, hmore⟩ := List.cons.inj hexecutions
  have hmakes : e.Makes r { memoryMinimum := 512, memoryMaximum := 1024 } :=
    ⟨⟨_, (Prod.mk.inj he).2.symm, rfl, rfl⟩, rfl⟩
  obtain ⟨-, -, e', rfl, hending⟩ := hcreation.made _ _ hmakes
  obtain ⟨he', -⟩ := List.cons.inj hmore
  have hreturned : e'.Returned := by
    rw [← (Prod.mk.inj he').2]
    nofun
  exact ⟨hpassed, congrArg (List.map (·.1)) hexecutions, hending hreturned⟩

end Operation

end GuestControl
