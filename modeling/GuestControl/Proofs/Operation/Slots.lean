import GuestControl.Proofs.Operation.Course
import GuestControl.Proofs.Turnstile.Alone
import GuestControl.Rehearsal

/-!
# Operations and slots

Every operation checks the service first and asks for nothing else if that fails.
Then it holds the slot of its machine, if it is on one, for all of its pipelines;
a new machine is given its settings under its own slot. No more than one slot is
held at any time, and none is left behind, however the operation ends.
-/

namespace GuestControl

open Exchange (underSlot)
open Service (Gate)
open Turnstile (Reachable Keeps)

theorem Exchange.mem_underSlot {id : Guid} {slot? : Option Guid} {xs : List Exchange}
    (h : slot? = some id) : ⟨.enter id, ()⟩ ∈ underSlot slot? xs := by
  subst h
  exact List.mem_cons_self

namespace Operation

inductive Session (op : Operation) : List Exchange → Prop
  | unslotted {e : Execution} : op.machine? = none → Session op [op.opening e]
  /-- All pipelines of an operation on a machine are run under its slot. -/
  | onMachine {id : Guid} {e : Execution} {more : List Exchange} : op.machine? = some id →
      (∀ x ∈ more, ∃ p mode e, x = ⟨.execute p mode, e⟩) →
      Session op (underSlot (some id) (op.opening e :: more))
  /-- A machine is made under no slot and gets its settings under its own. -/
  | creation {c : Machine.Creation} {o : Outcome} {r : Record} {m : Machine} {e : Execution} :
      op = .create c → o.first? = some r → Machine.schema.read r = .ok m →
      Session op (op.opening (.finished o) ::
        underSlot (some m.id) [⟨.execute (Manager.settingsPipeline c r m) .separate, e⟩])

variable {σ : Type} {world : Task.World σ} {op : Operation} {g : Gate} {w : σ}
  {xs : List Exchange} {ending : Ending Answer} {id : Guid}

theorem Course.session (h : op.Course xs ending) : op.Session (underSlot op.machine? xs) := by
  cases hslot : op.machine? with
  | none =>
    cases h with
    | stopped | done => exact .unslotted hslot
    | query hgoes hsequel =>
      obtain ⟨_, rfl, -⟩ | ⟨_, _, rfl, -⟩ | ⟨_, _, rfl, -⟩ := sequel_query hsequel
      · cases hslot
      · cases hslot
      · cases hslot
    | settings hgoes hsequel =>
      obtain ⟨c, r, hop, hfirst, hread, rfl⟩ := sequel_settings hsequel
      exact .creation hop hfirst hread
  | some id =>
    cases h with
    | stopped | done => exact .onMachine hslot fun x hx => (List.not_mem_nil hx).elim
    | query hgoes hsequel =>
      refine .onMachine hslot fun x hx => ?_
      exact ⟨_, _, _, List.mem_singleton.mp hx⟩
    | settings hgoes hsequel =>
      obtain ⟨c, r, rfl, -⟩ := sequel_settings hsequel
      cases hslot

/-- At most one slot is asked for, once, and given back at the end. -/
theorem Session.underSlot_eq (h : op.Session xs) : ∃ slot? before under,
    xs = before ++ underSlot slot? under ∧ (∀ x ∈ before, x.request.IsSlotless) ∧
      ∀ x ∈ under, x.request.IsSlotless := by
  cases h with
  | @unslotted e =>
    refine ⟨none, [], [op.opening e], rfl, fun x hx => (List.not_mem_nil hx).elim, fun x hx => ?_⟩
    obtain rfl := List.mem_singleton.mp hx
    trivial
  | @onMachine id e more _ hmore =>
    refine ⟨some id, [], op.opening e :: more, rfl, fun x hx => (List.not_mem_nil hx).elim,
      fun x hx => ?_⟩
    rcases List.mem_cons.mp hx with rfl | hx
    · trivial
    · obtain ⟨p, mode, e, rfl⟩ := hmore x hx
      trivial
  | @creation c o r m e =>
    refine ⟨some m.id, [op.opening (.finished o)], _, rfl, fun x hx => ?_, fun x hx => ?_⟩
    · obtain rfl := List.mem_singleton.mp hx
      trivial
    · obtain rfl := List.mem_singleton.mp hx
      trivial

theorem check_isService {x : Exchange} (hx : x ∈ g.drive.trace world w) : x.request.IsService :=
  Gate.only_drive.of_mem_trace hx

theorem trace_underSlot (op : Operation) (g : Gate) (world : Task.World σ) (w : σ) :
    ∃ slot? before under, Task.trace world (op.call g) w = before ++ underSlot slot? under ∧
      (∀ x ∈ before, x.request.IsSlotless) ∧ ∀ x ∈ under, x.request.IsSlotless := by
  have hcheck : ∀ x ∈ g.drive.trace world w, x.request.IsSlotless :=
    fun x hx => (check_isService hx).isSlotless
  cases hchecked : (g.drive.run world w).1 with
  | error cause =>
    rw [op.call_eq g, Gate.trace_failed hchecked]
    exact ⟨none, _, [], (List.append_nil _).symm, hcheck, fun x hx => (List.not_mem_nil hx).elim⟩
  | ok _ =>
    obtain ⟨xs, htrace, hcourse⟩ := op.course_of_passed hchecked
    obtain ⟨slot?, before, under, hxs, hbefore, hunder⟩ := hcourse.session.underSlot_eq
    refine ⟨slot?, g.drive.trace world w ++ before, under, ?_, fun x hx => ?_, hunder⟩
    · rw [htrace, hxs, List.append_assoc]
    · exact (List.mem_append.mp hx).elim (hcheck x) (hbefore x)

/-- First comes the check, then what `Session` says, and at every point of it the
turnstile lets the thread have the one slot that it is to hold, or none. -/
theorem check_then_session (op : Operation) (g : Gate) (world : Task.World σ) (w : σ) :
    (∀ x ∈ g.drive.trace world w, x.request.IsService) ∧
    (∀ cause, (g.drive.run world w).1 = .error cause →
      Task.trace world (op.call g) w = g.drive.trace world w ∧
      (Task.run world (op.call g) w).1 = .error (.serviceUnavailable g.service cause)) ∧
    ((g.drive.run world w).1 = .ok () → ∃ session, op.Session session ∧
      Task.trace world (op.call g) w = g.drive.trace world w ++ session) ∧
    ∀ (s : Turnstile.State) (t : Nat), Reachable s → s.threads[t]? = some .idle →
      (∀ id, ⟨.enter id, ()⟩ ∈ Task.trace world (op.call g) w → s.pending id = 0) →
      (∀ before after, Task.trace world (op.call g) w = before ++ after → Keeps s t before) ∧
      ∃ s', s.alone t (Task.trace world (op.call g) w) = some s' ∧ s'.SameAs s := by
  refine ⟨fun x hx => check_isService hx, fun cause hfailed => ?_, fun hpassed => ?_,
    fun s t hs ht hunused => ?_⟩
  · rw [op.call_eq g, Gate.trace_failed hfailed, Gate.run_failed hfailed]
    exact ⟨rfl, rfl⟩
  · obtain ⟨xs, htrace, hcourse⟩ := op.course_of_passed hpassed
    exact ⟨_, hcourse.session, htrace⟩
  · obtain ⟨slot?, before, under, htrace, hbefore, hunder⟩ := trace_underSlot op g world w
    rw [htrace] at hunused ⊢
    have hfree : ∀ id, slot? = some id → s.registered? id = none := by
      intro id hslot
      have hzero := hunused id (List.mem_append_right _ (Exchange.mem_underSlot hslot))
      cases hregistered : s.registered? id with
      | none => rfl
      | some e =>
        have := hs.orderly.registered_iff_pending.mp ⟨e, hregistered⟩
        omega
    exact ⟨fun b a => Turnstile.keeps_prefix hs.orderly ht hfree hbefore hunder,
      Turnstile.alone_sameAs hs.orderly ht hfree hbefore hunder⟩

/-- A stopped service is started, a machine is made, and its settings crash under its
slot, while thread 1 is at another machine. -/
theorem check_then_session_crash :
    let op := create (.new "worker" "worker.vhdx")
    let w : Rehearsal :=
      { statuses := [.ok .stopped]
        executions := [.finished { records := [.empty] }, .crashed "out of memory"] }
    let trace := Task.trace Rehearsal.world (op.call default) w
    (Task.run Rehearsal.world (op.call default) w).1 = .crashed "out of memory" ∧
    (∃ session, op.Session session ∧
      trace = (Gate.drive default).trace Rehearsal.world w ++ session) ∧
    ∃ s s' other, Reachable s ∧ s.heldBy? 1 = some other ∧ Exchange.held (trace.take 6) = [.nil] ∧
      Keeps s 0 (trace.take 6) ∧ s.alone 0 trace = some s' ∧ s'.SameAs s := by
  intro op w trace
  let other : Guid := ⟨List.replicate 32 ⟨1, by decide⟩, List.length_replicate⟩
  obtain ⟨s, hs⟩ : ∃ s, runEvents Turnstile.State.move (.init 2) [(1, .draw other), (1, .look)] =
    some s := ⟨_, rfl⟩
  have hreachable := (Reachable.init 2).run hs
  obtain rfl := Option.some.inj hs
  obtain ⟨-, -, hpassed, halone⟩ := check_then_session op default Rehearsal.world w
  obtain ⟨hkeeps, s', hs', hsame⟩ := halone _ 0 hreachable rfl fun id hid => by
    have hentered : id ∈ trace.filterMap fun x =>
        match x.request with
        | .enter id => some id
        | _ => none := List.mem_filterMap.mpr ⟨_, hid, rfl⟩
    obtain rfl : id = .nil := List.mem_singleton.mp hentered
    decide
  exact ⟨rfl, hpassed rfl, _, s', other, hreachable, rfl, rfl,
    hkeeps _ _ (List.take_append_drop 6 trace).symm, hs', hsame⟩

end Operation

end GuestControl
