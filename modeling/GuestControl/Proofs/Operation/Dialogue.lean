import GuestControl.Operation

/-!
# What a call asks and is told

The trace of a task is the list of its requests with the replies it was given. A
task in two parts has the trace of the one part and then that of the other, and
what a task asks for in no case is not in its trace.
-/

namespace GuestControl

structure Exchange where
  request : Request
  reply : request.Reply

def Request.IsService : Request → Prop
  | .status | .start | .resume | .wait .. => True
  | .enter _ | .leave _ | .execute .. => False

def Request.IsSlotless : Request → Prop
  | .enter _ | .leave _ => False
  | .status | .start | .resume | .wait .. | .execute .. => True

theorem Request.IsService.isSlotless {q : Request} (h : q.IsService) : q.IsSlotless := by
  cases q with
  | enter | leave => exact h.elim
  | status | start | resume | wait | execute => trivial

def Request.hold (ids : List Guid) : Request → List Guid
  | .enter id => id :: ids
  | .leave id => ids.erase id
  | .status | .start | .resume | .wait .. | .execute .. => ids

namespace Exchange

def held (xs : List Exchange) : List Guid := xs.foldl (fun ids x => x.request.hold ids) []

def execution? : Exchange → Option ((Pipeline × Mode) × Execution)
  | ⟨.execute p mode, e⟩ => some ((p, mode), e)
  | _ => none

def underSlot : Option Guid → List Exchange → List Exchange
  | some id, xs => ⟨.enter id, ()⟩ :: (xs ++ [⟨.leave id, ()⟩])
  | none, xs => xs

theorem executions_underSlot (slot? : Option Guid) (xs : List Exchange) :
    (underSlot slot? xs).filterMap execution? = xs.filterMap execution? := by
  cases slot? with
  | none => rfl
  | some id =>
    rw [underSlot, List.filterMap_cons_none rfl, List.filterMap_append]
    exact List.append_nil _

end Exchange

namespace Task

variable {α β σ : Type} {P : Request → Prop}

/-- What a task asks and is told when a world replies. -/
def trace (world : World σ) : Task α → σ → List Exchange
  | .done _, _ => []
  | .ask q next, s => ⟨q, (world q s).1⟩ :: (next (world q s).1).trace world (world q s).2

theorem trace_bind (world : World σ) (t : Task α) (f : α → Task β) (s : σ) :
    (t.bind f).trace world s =
      t.trace world s ++ (f (t.run world s).1).trace world (t.run world s).2 := by
  induction t generalizing s with
  | done => rfl
  | ask q next ih => simp only [bind, trace, run, ih, List.cons_append]

def executions (world : World σ) (t : Task α) (s : σ) : List ((Pipeline × Mode) × Execution) :=
  (t.trace world s).filterMap Exchange.execution?

/-- Whatever it is told, the task asks only for requests of a kind. -/
inductive Only (P : Request → Prop) : Task α → Prop
  | done (a : α) : Only P (.done a)
  | ask {q : Request} {next : q.Reply → Task α} : P q → (∀ reply, Only P (next reply)) →
      Only P (.ask q next)

theorem Only.of_mem_trace {world : World σ} {t : Task α} (h : Only P t) {s : σ} {x : Exchange}
    (hx : x ∈ t.trace world s) : P x.request := by
  induction h generalizing s with
  | done => cases hx
  | ask hq _ ih =>
    rcases List.mem_cons.mp hx with rfl | hx
    · exact hq
    · exact ih _ hx

end Task

-- ---------------------------------------------------------------------------
-- Calls
-- ---------------------------------------------------------------------------

namespace Ending

def ofExcept {α : Type} : Except Error α → Ending α
  | .ok a => .value a
  | .error e => .error e

end Ending

namespace Call

variable {α β γ : Type} {f : β → γ}

theorem map_bind (c : Call α) (next : α → Call β) (f : β → γ) :
    (c >>= next : Call β).map f = (c >>= fun a => (next a).map f : Call γ) := by
  refine (Task.bind_assoc c _ _).trans (congrArg (Task.bind c) (funext fun ending => ?_))
  cases ending with
  | _ => rfl

theorem map_holding (id : Guid) (c : Call α) (f : α → β) :
    (c.holding id).map f = (c.map f).holding id := by
  refine congrArg (fun t : Call β => (Task.ask (.enter id) fun _ => t : Call β)) ?_
  exact (Task.bind_assoc c _ _).trans (Task.bind_assoc c (fun ending => .done (ending.map f))
    fun ending => .ask (.leave id) fun _ => .done ending).symm

theorem map_ofExcept (r : Except Error α) (f : α → β) :
    (ofExcept r).map f = ofExcept (r.map f) := by
  cases r with
  | _ => rfl

theorem ofExcept_eq (r : Except Error α) : ofExcept r = .done (.ofExcept r) := by
  cases r with
  | _ => rfl

end Call

-- ---------------------------------------------------------------------------
-- The readiness check
-- ---------------------------------------------------------------------------

namespace Service.Gate

open GuestControl.Task (Only)

variable {σ : Type} {g : Gate}

theorem only_await {target : Status} {next : Check} (h : Only Request.IsService next) :
    Only Request.IsService (g.await target next) := by
  refine .ask trivial fun reply => ?_
  rcases reply with e | b
  · exact .done _
  · cases b with
    | true => exact h
    | false => exact .done _

theorem only_start : Only Request.IsService g.start := by
  refine .ask trivial fun reply => ?_
  rcases reply with e | u
  · exact .done _
  · exact only_await (.done _)

theorem only_resume : Only Request.IsService g.resume := by
  refine .ask trivial fun reply => ?_
  rcases reply with e | u
  · exact .done _
  · exact only_await (.done _)

theorem only_drive : Only Request.IsService g.drive := by
  refine .ask trivial fun reply => ?_
  rcases reply with e | status
  · exact .done _
  · cases status with
    | running => exact .done _
    | startPending | continuePending => exact only_await (.done _)
    | stopPending => exact only_await only_start
    | stopped => exact only_start
    | pausePending => exact only_await only_resume
    | paused => exact only_resume

variable {α : Type} {c : Call α} {world : Task.World σ} {s : σ}

theorem executions_drive (g : Gate) (world : Task.World σ) (s : σ) :
    g.drive.executions world s = [] := by
  refine List.filterMap_eq_nil_iff.mpr fun x hx => ?_
  have hservice := only_drive.of_mem_trace hx
  obtain ⟨q, reply⟩ := x
  cases q with
  | enter | leave | execute => exact hservice.elim
  | status | start | resume | wait => rfl

theorem ensureRunning_bind (g : Gate) (c : Call α) : (g.ensureRunning >>= fun _ => c : Call α) =
    Task.bind g.drive fun checked =>
      match checked with
      | .ok () => c
      | .error cause => .done (.error (.serviceUnavailable g.service cause)) := by
  refine (Task.bind_assoc g.drive _ _).trans ?_
  refine congrArg (Task.bind g.drive) (funext fun checked => ?_)
  rcases checked with cause | u
  · rfl
  · rfl

theorem run_failed {cause : ServiceError} (h : (g.drive.run world s).1 = .error cause) :
    Task.run world (g.ensureRunning >>= fun _ => c : Call α) s =
      (.error (.serviceUnavailable g.service cause), (g.drive.run world s).2) := by
  rw [ensureRunning_bind, Task.run_bind, h]
  rfl

theorem trace_failed {cause : ServiceError} (h : (g.drive.run world s).1 = .error cause) :
    Task.trace world (g.ensureRunning >>= fun _ => c : Call α) s = g.drive.trace world s := by
  rw [ensureRunning_bind, Task.trace_bind, h]
  exact List.append_nil _

theorem run_passed (h : (g.drive.run world s).1 = .ok ()) :
    Task.run world (g.ensureRunning >>= fun _ => c : Call α) s =
      Task.run world c (g.drive.run world s).2 := by
  rw [ensureRunning_bind, Task.run_bind, h]

theorem trace_passed (h : (g.drive.run world s).1 = .ok ()) :
    Task.trace world (g.ensureRunning >>= fun _ => c : Call α) s =
      g.drive.trace world s ++ Task.trace world c (g.drive.run world s).2 := by
  rw [ensureRunning_bind, Task.trace_bind, h]

end Service.Gate

end GuestControl
