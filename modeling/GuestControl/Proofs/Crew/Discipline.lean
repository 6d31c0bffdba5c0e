import GuestControl.Operation

/-!
# The discipline of calls

An operation on a machine asks for nothing but the status of the service until
it takes the slot of the machine, runs pipelines until it gives the slot back,
and asks for nothing after that. So a call keeps in step with the turnstile: it
is at its pipelines while its thread holds the slot, and at no other time.
-/

namespace GuestControl

namespace Task

inductive Asks {α : Type} (request : Request) : Task α → Prop
  | here (next : request.Reply → Task α) : Asks request (.ask request next)
  | later {q : Request} {next : q.Reply → Task α} (reply : q.Reply) :
      Asks request (next reply) → Asks request (.ask q next)

inductive Plain {α : Type} : Task α → Prop
  | done (a : α) : Plain (.done a)
  | execute {next : Execution → Task α} : (∀ e, Plain (next e)) →
      Plain (.ask (.execute p mode) next)

/-- The task runs pipelines that it may run, gives the slot back and is done. -/
inductive Inside {α : Type} (id : Guid) (may : Pipeline → Mode → Prop) : Task α → Prop
  | leave {next : Unit → Task α} : next () = .done a → Inside id may (.ask (.leave id) next)
  | execute {next : Execution → Task α} : may p mode → (∀ e, Inside id may (next e)) →
      Inside id may (.ask (.execute p mode) next)

/-- The task sees the service running, takes the slot and goes on inside. -/
inductive Outside {α : Type} (id : Guid) (may : Pipeline → Mode → Prop) : Task α → Prop
  | status {next : Request.status.Reply → Task α} : Outside id may (next (.ok .running)) →
      Outside id may (.ask .status next)
  | enter {next : Unit → Task α} : Inside id may (next ()) → Outside id may (.ask (.enter id) next)

variable {α β : Type} {id : Guid} {may : Pipeline → Mode → Prop}

theorem Plain.bind {t : Task α} {f : α → Task β} (ht : t.Plain) (hf : ∀ a, (f a).Plain) :
    (t.bind f).Plain := by
  induction ht with
  | done a => exact hf a
  | execute _ ih => exact .execute ih

theorem Inside.of_plain {t : Task α} {f : α → β} (ht : t.Plain) (hmay : ∀ p mode,
    (t.bind fun a => .ask (.leave id) fun _ => .done (f a)).Asks (.execute p mode) → may p mode) :
    Inside id may (t.bind fun a => .ask (.leave id) fun _ => .done (f a)) := by
  induction ht with
  | done a => exact .leave rfl
  | execute _ ih =>
    exact .execute (hmay _ _ (.here _)) fun e => ih e fun p mode h => hmay p mode (.later e h)

end Task

-- ---------------------------------------------------------------------------
-- Operations
-- ---------------------------------------------------------------------------

namespace Manager

open GuestControl.Task (Plain Outside Inside)
open Service (Gate)

variable {α β : Type} {g : Gate} {id : Guid} {may : Pipeline → Mode → Prop}

theorem plain_bind {c : Call α} {f : α → Call β} (hc : Plain c) (hf : ∀ a, Plain (f a)) :
    Plain (c >>= f : Call β) := by
  refine Plain.bind hc fun e => ?_
  cases e with
  | value a => exact hf a
  | error e => exact .done _
  | crashed report => exact .done _

theorem plain_ofExcept (r : Except Error α) : Plain (Call.ofExcept r) := by
  cases r with
  | ok a => exact .done _
  | error e => exact .done _

theorem plain_run (operation : String) (resource : Option Guid) (p : Pipeline) (mode : Mode) :
    Plain (run operation resource p mode) := by
  refine .execute fun e => ?_
  cases e with
  | finished o => exact .done _
  | failed e => exact .done _
  | crashed report => exact .done _

theorem plain_runChecked (operation : String) (resource : Option Guid) (p : Pipeline)
    (mode : Mode) : Plain (runChecked operation resource p mode) := by
  refine plain_bind (plain_run operation resource p mode) fun o => ?_
  split
  · exact .done _
  · exact .done _

/-- With the service running, an operation on a machine takes the slot at once
and gives it back at the end. -/
theorem onMachine_running (g : Gate) (id : Guid) (c : Call α) (f : α → β) :
    ∃ next : Request.status.Reply → Call β, (onMachine g id c).map f = Task.ask .status next ∧
      next (.ok .running) = Task.ask (.enter id) fun _ =>
        Task.bind c fun e => .ask (.leave id) fun _ => .done (e.map f) :=
  ⟨_, rfl, congrArg (fun t : Call β => Task.ask (.enter id) fun _ => t) (Task.bind_assoc c _ _)⟩

theorem outside_onMachine {c : Call α} {f : α → β} (hc : Plain c)
    (hmay : ∀ p mode, ((onMachine g id c).map f).Asks (.execute p mode) → may p mode) :
    Outside id may ((onMachine g id c).map f) := by
  obtain ⟨next, hstatus, hrunning⟩ := onMachine_running g id c f
  rw [hstatus] at hmay ⊢
  refine .status ?_
  rw [hrunning]
  refine .enter (.of_plain hc fun p mode h => hmay p mode (.later (.ok .running) ?_))
  rw [hrunning]
  exact .later () h

end Manager

open Manager in
theorem Operation.outside {op : Operation} {id : Guid} (hid : op.machine? = some id)
    (hmay : ∀ p mode, (op.call g).Asks (.execute p mode) → may p mode) :
    (op.call g).Outside id may := by
  cases op with
  | listMachines | getHost | diskSize _ | create _ => cases hid
  | start _ | stop _ _ | pause _ | resume _ | restart _ | takeCheckpoint _ =>
    obtain rfl := Option.some.inj hid
    exact outside_onMachine (plain_bind (plain_runChecked ..) fun _ => plain_ofExcept _) hmay
  | getMachine _ =>
    obtain rfl := Option.some.inj hid
    refine outside_onMachine (plain_bind (plain_runChecked ..) fun o => ?_) hmay
    cases o.first? with
    | some r => exact plain_ofExcept _
    | none => exact .done _
  | listCheckpoints _ =>
    obtain rfl := Option.some.inj hid
    exact outside_onMachine (plain_bind (plain_run ..) fun _ => .done _) hmay
  | remove _ =>
    obtain rfl := Option.some.inj hid
    refine outside_onMachine (plain_bind (plain_runChecked ..) fun o => ?_) hmay
    cases Manager.reportsDeleted o with
    | true => exact .done _
    | false => exact plain_bind (plain_run ..) fun _ => .done _
  | applyCheckpoint _ _ =>
    obtain rfl := Option.some.inj hid
    refine outside_onMachine (plain_bind (plain_runChecked ..) fun _ => ?_) hmay
    exact plain_bind (plain_run ..) fun _ => plain_ofExcept _
  | removeCheckpoint _ _ =>
    obtain rfl := Option.some.inj hid
    refine outside_onMachine (plain_bind (plain_runChecked ..) fun _ => ?_) hmay
    exact plain_bind (plain_run ..) fun _ => .done _

end GuestControl
