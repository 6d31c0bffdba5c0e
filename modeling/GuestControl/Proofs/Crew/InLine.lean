import GuestControl.Crew
import GuestControl.Proofs.Crew.Discipline
import GuestControl.Proofs.Turnstile.Line

/-!
# Calls in line

A crew whose calls keep the discipline is in line with its turnstile: who has
drawn no ticket is outside, everyone else is where its phase says, and those
who drew before are ahead. While one thread holds the slot of a machine, the
calls on that machine that drew before are over.
-/

namespace GuestControl

open Turnstile (Phase Act Ahead Orderly Step getElem?_set_some getElem?_set_self_of_some)

namespace Task

inductive Over {α : Type} (a : α) : Task α → Prop
  | done : Over a (.done a)
  | leave {id : Guid} {next : Unit → Task α} : next () = .done a → Over a (.ask (.leave id) next)

/-- What is left of a call that has drawn its ticket, by the phase of its thread. -/
inductive Engaged {α : Type} (id : Guid) (may : Pipeline → Mode → Prop) : Phase → Task α → Prop
  | arriving {next : Unit → Task α} : slot.id = id → Inside id may (next ()) →
      Engaged id may (.arriving slot k) (.ask (.enter id) next)
  | asleep {next : Unit → Task α} : slot.id = id → Inside id may (next ()) →
      Engaged id may (.asleep slot k) (.ask (.enter id) next)
  | holding {task : Task α} : slot.id = id → Inside id may task →
      Engaged id may (.holding slot) task
  | advanced {next : Unit → Task α} : next () = .done a →
      Engaged id may (.advanced slot) (.ask (.leave id) next)
  | called {next : Unit → Task α} : next () = .done a →
      Engaged id may (.called slot) (.ask (.leave id) next)
  | finished : Engaged id may .idle (.done a)

inductive Turns {α : Type} : Task α → Phase → Act → Phase → Task α → Prop
  | draw {id : Guid} {next : Unit → Task α} :
      Turns (.ask (.enter id) next) .idle (.draw id) (.arriving ⟨id, n⟩ k) (.ask (.enter id) next)
  | grant {id : Guid} {next : Unit → Task α} :
      Turns (.ask (.enter id) next) (.arriving slot k) .look (.holding slot) (next ())
  | sleep {id : Guid} {next : Unit → Task α} :
      Turns (.ask (.enter id) next) (.arriving slot k) .look (.asleep slot k)
        (.ask (.enter id) next)
  | rouse {id : Guid} {next : Unit → Task α} :
      Turns (.ask (.enter id) next) (.asleep slot k) .rouse (.arriving slot k)
        (.ask (.enter id) next)
  | advance {id : Guid} {next : Unit → Task α} :
      Turns (.ask (.leave id) next) (.holding slot) .advance (.advanced slot)
        (.ask (.leave id) next)
  | call {id : Guid} {next : Unit → Task α} :
      Turns (.ask (.leave id) next) (.advanced slot) .call (.called slot) (.ask (.leave id) next)
  | sign {id : Guid} {next : Unit → Task α} :
      Turns (.ask (.leave id) next) (.called slot) .sign .idle (next ())

variable {α : Type} {id : Guid} {may : Pipeline → Mode → Prop} {task task' : Task α}
  {p p' : Phase} {a : Act} {s s' : Turnstile.State} {t u : Nat}

theorem Engaged.turn (h : Engaged id may p task) (ht : Turns task p a p' task') :
    Engaged id may p' task' := by
  cases ht with
  | draw => cases h
  | grant =>
    cases h with
    | arriving hid hin => exact .holding hid hin
  | sleep =>
    cases h with
    | arriving hid hin => exact .asleep hid hin
  | rouse =>
    cases h with
    | asleep hid hin => exact .arriving hid hin
  | advance =>
    cases h with
    | holding hid hin =>
      cases hin with
      | leave hdone => exact .advanced hdone
  | call =>
    cases h with
    | advanced hdone => exact .called hdone
  | sign =>
    cases h with
    | called hdone => exact hdone ▸ .finished

theorem Engaged.not_draw (h : Engaged id may p task) (ht : Turns task p a p' task') (id' : Guid) :
    a ≠ .draw id' := by
  rintro rfl
  cases ht
  cases h

theorem Outside.turn (h : Outside id may task) (ht : Turns task .idle a p' task') :
    a = .draw id ∧ Engaged id may p' task' := by
  cases ht
  cases h with
  | enter hin => exact ⟨rfl, .arriving rfl hin⟩

theorem Engaged.others (h : Engaged id may p task) (hs : Step s t a s') (hu : u ≠ t)
    (hp : s.threads[u]? = some p) : ∃ p', s'.threads[u]? = some p' ∧ Engaged id may p' task := by
  rcases hs.others hu with he | ⟨slot, k, -, hk, hk'⟩
  · exact ⟨p, he.trans hp, h⟩
  · obtain rfl := Option.some.inj (hp.symm.trans hk)
    cases h with
    | asleep hid hin => exact ⟨_, hk', .arriving hid hin⟩

end Task

open GuestControl.Task (Inside Outside Engaged Turns Over)

namespace Crew

variable {α : Type} {c c' : Crew α} {t u : Nat} {a : Act} {place : Nat → Guid}
  {may : Guid → Pipeline → Mode → Prop} {order pre post : List Nat}

theorem tasks_set_self {task : Task α} (h : c.tasks[t]? = some task) :
    c.tasks.set t task = c.tasks := by
  obtain ⟨hlt, rfl⟩ := List.getElem?_eq_some_iff.mp h
  exact List.set_getElem_self hlt

theorem turn_eq_some (h : c.turn t a = some c') : ∃ task task' p p' s, c.tasks[t]? = some task ∧
    c.turnstile.threads[t]? = some p ∧ Step c.turnstile t a s ∧ s.threads[t]? = some p' ∧
    Turns task p a p' task' ∧ c' = ⟨s, c.tasks.set t task'⟩ := by
  simp only [turn, Option.bind_eq_bind, Option.bind_eq_some_iff] at h
  obtain ⟨task, htask, s, hs, h⟩ := h
  obtain ⟨p, p', hp, hp', hm⟩ := (Step.of_step hs).moves
  suffices ∃ task', Turns task p a p' task' ∧ c' = ⟨s, c.tasks.set t task'⟩ by
    obtain ⟨task', ht, hc⟩ := this
    exact ⟨task, task', p, p', s, htask, hp, .of_step hs, hp', ht, hc⟩
  have same := tasks_set_self htask
  split at h
  · split at h
    · rename_i hid
      subst hid
      cases hm
      exact ⟨_, .draw, by rw [same]; exact (Option.some.inj h).symm⟩
    · cases h
  · cases hm with
    | grant =>
      have hh : s.holds t = true := by simp [Turnstile.State.holds, Turnstile.State.heldBy?, hp']
      rw [if_pos hh] at h
      exact ⟨_, .grant, (Option.some.inj h).symm⟩
    | sleep =>
      have hh : s.holds t ≠ true := by simp [Turnstile.State.holds, Turnstile.State.heldBy?, hp']
      rw [if_neg hh] at h
      exact ⟨_, .sleep, by rw [same]; exact (Option.some.inj h).symm⟩
  · cases hm
    exact ⟨_, .rouse, by rw [same]; exact (Option.some.inj h).symm⟩
  · cases hm
    exact ⟨_, .advance, by rw [same]; exact (Option.some.inj h).symm⟩
  · cases hm
    exact ⟨_, .call, by rw [same]; exact (Option.some.inj h).symm⟩
  · cases hm
    exact ⟨_, .sign, (Option.some.inj h).symm⟩
  · cases h

theorem reply_eq_some {replies : (q : Request) → q.Reply} (h : c.reply t replies = some c') :
    ∃ q next, c.tasks[t]? = some (.ask q next) ∧ (∀ id, q ≠ .enter id) ∧ (∀ id, q ≠ .leave id) ∧
      c' = c.setTask t (next (replies q)) := by
  unfold reply at h
  split at h
  · cases h
  · cases h
  · rename_i q next henter hleave hask
    refine ⟨q, next, hask, ?_, ?_, (Option.some.inj h).symm⟩
    · rintro id rfl
      exact henter id next rfl HEq.rfl
    · rintro id rfl
      exact hleave id next rfl HEq.rfl
  · cases h

-- ---------------------------------------------------------------------------
-- The whole crew
-- ---------------------------------------------------------------------------

def drawn (t : Nat) : Act → List Nat
  | .draw _ => [t]
  | _ => []

theorem drawn_eq_nil (h : ∀ id, a ≠ .draw id) : drawn t a = [] := by
  cases a with
  | draw id => exact absurd rfl (h id)
  | _ => rfl

/-- Each call, on its machine, is in step with the turnstile; `order` are the
threads that have drawn a ticket, first to last. -/
structure InLine (may : Guid → Pipeline → Mode → Prop) (place : Nat → Guid) (order : List Nat)
    (c : Crew α) : Prop where
  orderly : Orderly c.turnstile
  nodup : order.Nodup
  waiting : ∀ {t : Nat} {task : Task α}, c.tasks[t]? = some task → t ∉ order →
    c.turnstile.threads[t]? = some .idle ∧ Outside (place t) (may (place t)) task
  engaged : ∀ {t : Nat}, t ∈ order → ∃ p task, c.turnstile.threads[t]? = some p ∧
    c.tasks[t]? = some task ∧ Engaged (place t) (may (place t)) p task
  ahead : order.Pairwise (Ahead c.turnstile)

namespace InLine

theorem init {tasks : List (Task α)} (h : ∀ {t : Nat} {task : Task α}, tasks[t]? = some task →
    Outside (place t) (may (place t)) task) :
    InLine may place [] ⟨.init tasks.length, tasks⟩ where
  orderly := .init _
  nodup := .nil
  waiting htask _ :=
    ⟨List.getElem?_replicate_of_lt (List.getElem?_eq_some_iff.mp htask).1, h htask⟩
  engaged := nofun
  ahead := .nil

theorem turn_engaged (h : InLine may place order c) (htask : c.tasks[t]? = some task)
    (hp : c.turnstile.threads[t]? = some p) (ht : Turns task p a p' task') :
    Engaged (place t) (may (place t)) p' task' ∧
      (t ∈ order ∧ (∀ id, a ≠ .draw id) ∨ t ∉ order ∧ a = .draw (place t)) := by
  by_cases hmem : t ∈ order
  · obtain ⟨q, tk, hq, htk, he⟩ := h.engaged hmem
    obtain rfl := Option.some.inj (hp.symm.trans hq)
    obtain rfl := Option.some.inj (htask.symm.trans htk)
    exact ⟨he.turn ht, .inl ⟨hmem, he.not_draw ht⟩⟩
  · obtain ⟨hidle, hout⟩ := h.waiting htask hmem
    obtain rfl := Option.some.inj (hp.symm.trans hidle)
    obtain ⟨ha, he⟩ := hout.turn ht
    exact ⟨he, .inr ⟨hmem, ha⟩⟩

theorem others {order' : List Nat} (h : InLine may place order c) (hs : Step c.turnstile t a s)
    (htask : c.tasks[t]? = some task) (hp : s.threads[t]? = some p)
    (he : Engaged (place t) (may (place t)) p task') (ht : t ∈ order')
    (hu : ∀ u, u ≠ t → (u ∈ order' ↔ u ∈ order)) (hnodup : order'.Nodup)
    (hahead : order'.Pairwise (Ahead s)) : InLine may place order' ⟨s, c.tasks.set t task'⟩ where
  orderly := h.orderly.step hs
  nodup := hnodup
  waiting := by
    intro u tk htk hmem
    rcases getElem?_set_some htk with ⟨rfl, -⟩ | ⟨hut, htk⟩
    · exact absurd ht hmem
    · obtain ⟨hidle, hout⟩ := h.waiting htk fun hold => hmem ((hu u hut).mpr hold)
      refine ⟨?_, hout⟩
      rcases hs.others hut with he | ⟨_, _, -, hk, -⟩
      · exact he.trans hidle
      · rw [hidle] at hk
        cases hk
  engaged := by
    intro u hmem
    by_cases hut : u = t
    · subst hut
      exact ⟨p, task', hp, getElem?_set_self_of_some htask, he⟩
    · obtain ⟨q, tk, hq, htk, he⟩ := h.engaged ((hu u hut).mp hmem)
      obtain ⟨q', hq', he'⟩ := he.others hs hut hq
      exact ⟨q', tk, hq', (List.getElem?_set_ne (Ne.symm hut)).trans htk, he'⟩
  ahead := hahead

theorem turn (h : InLine may place order c) (hs : c.turn t a = some c') :
    InLine may place (order ++ drawn t a) c' := by
  obtain ⟨task, task', p, p', s, htask, hp, hstep, hp', ht, rfl⟩ := turn_eq_some hs
  obtain ⟨he, ⟨hmem, ha⟩ | ⟨hmem, rfl⟩⟩ := h.turn_engaged htask hp ht
  · rw [drawn_eq_nil ha, List.append_nil]
    refine h.others hstep htask hp' he hmem (fun _ _ => Iff.rfl) h.nodup ?_
    exact h.ahead.imp fun hahead => hahead.step h.orderly hstep (fun _ => ha) fun _ => ha
  · have hne : ∀ u ∈ order, u ≠ t := by
      rintro u hu rfl
      exact hmem hu
    show InLine may place (order ++ [t]) _
    refine h.others hstep htask hp' he (by simp) (fun u hut => by simp [hut]) ?_ ?_
    · exact List.nodup_append.mpr ⟨h.nodup, by simp, fun u hu v hv => by simp_all⟩
    · refine List.pairwise_append.mpr ⟨?_, List.pairwise_singleton _ t, fun u hu v hv => ?_⟩
      · refine h.ahead.imp_of_mem fun {u v} hu hv hahead => ?_
        exact hahead.step h.orderly hstep (fun e => absurd e.symm (hne u hu))
          fun e => absurd e.symm (hne v hv)
      · obtain rfl := List.mem_singleton.mp hv
        exact .of_draw h.orderly hstep (hne u hu)

theorem setTask (h : InLine may place order c) (htask : c.tasks[t]? = some task)
    (hout : t ∉ order → Outside (place t) (may (place t)) task')
    (hin : t ∈ order → ∀ p, c.turnstile.threads[t]? = some p →
      Engaged (place t) (may (place t)) p task') : InLine may place order (c.setTask t task') where
  orderly := h.orderly
  nodup := h.nodup
  waiting := by
    intro u tk htk hu
    rcases getElem?_set_some htk with ⟨rfl, rfl⟩ | ⟨-, htk⟩
    · exact ⟨(h.waiting htask hu).1, hout hu⟩
    · exact h.waiting htk hu
  engaged := by
    intro u hu
    obtain ⟨p, tk, hp, htk, he⟩ := h.engaged hu
    by_cases hut : u = t
    · subst hut
      exact ⟨p, task', hp, getElem?_set_self_of_some htask, hin hu p hp⟩
    · exact ⟨p, tk, hp, (List.getElem?_set_ne (Ne.symm hut)).trans htk, he⟩
  ahead := h.ahead

/-- What a call may ask that is not about a slot: the status before it has
drawn its ticket, pipelines while it holds the slot. -/
theorem asks (h : InLine may place order c) {q : Request} {next : q.Reply → Task α}
    (hask : c.tasks[t]? = some (.ask q next)) (henter : ∀ id, q ≠ .enter id)
    (hleave : ∀ id, q ≠ .leave id) :
    t ∉ order ∧ q = .status ∨
    t ∈ order ∧ ∃ p mode slot, q = .execute p mode ∧ may (place t) p mode ∧
      c.turnstile.threads[t]? = some (.holding slot) ∧ slot.id = place t := by
  by_cases hmem : t ∈ order
  · obtain ⟨p, task, hp, htask, he⟩ := h.engaged hmem
    obtain rfl := Option.some.inj (hask.symm.trans htask)
    cases he with
    | holding hid hin =>
      cases hin with
      | leave => exact absurd rfl (hleave _)
      | execute hmay _ => exact .inr ⟨hmem, _, _, _, rfl, hmay, hp, hid⟩
    | arriving | asleep => exact absurd rfl (henter _)
    | advanced | called => exact absurd rfl (hleave _)
  · cases (h.waiting hask hmem).2 with
    | status => exact .inl ⟨hmem, rfl⟩
    | enter => exact absurd rfl (henter _)

theorem reply (h : InLine may place order c) {replies : (q : Request) → q.Reply}
    (hruns : replies .status = .ok .running) (hs : c.reply t replies = some c') :
    InLine may place order c' := by
  obtain ⟨q, next, hask, henter, hleave, rfl⟩ := reply_eq_some hs
  refine h.setTask hask (fun hmem => ?_) fun hmem p hp => ?_
  · cases (h.waiting hask hmem).2 with
    | status hout => exact hruns ▸ hout
    | enter => exact absurd rfl (henter _)
  · obtain ⟨q, task, hq, htask, he⟩ := h.engaged hmem
    obtain rfl := Option.some.inj (hask.symm.trans htask)
    obtain rfl := Option.some.inj (hp.symm.trans hq)
    cases he with
    | holding hid hin =>
      cases hin with
      | leave => exact absurd rfl (hleave _)
      | execute _ hin => exact .holding hid (hin _)
    | arriving | asleep => exact absurd rfl (henter _)
    | advanced | called => exact absurd rfl (hleave _)

/-- While a thread holds the slot of its machine, the calls on that machine
that drew before are over. -/
theorem over_ahead (h : InLine may place (pre ++ t :: post) c)
    (ht : c.turnstile.threads[t]? = some (.holding slot)) (hid : slot.id = place t)
    (hu : u ∈ pre) (hplace : place u = place t) :
    ∃ task a, c.tasks[u]? = some task ∧ Over a task := by
  obtain ⟨p, task, hp, htask, he⟩ := h.engaged (List.mem_append_left (t :: post) hu)
  have hahead := (List.pairwise_append.mp h.ahead).2.2 u hu t List.mem_cons_self
  have hfront : ∀ sl k, sl.id = place u → p.standing c.turnstile.serving ≠ .queued sl k := by
    intro sl k hsl hst
    refine h.orderly.not_queued_ahead (k := k) ht hahead (hsl.trans (hplace.trans hid.symm)) ?_
    rw [Turnstile.State.standings_of_thread hp, hst]
  cases he with
  | arriving hid _ => exact absurd rfl (hfront _ _ hid)
  | asleep hid _ => exact absurd rfl (hfront _ _ hid)
  | holding hid _ => exact absurd rfl (hfront _ _ hid)
  | advanced hdone => exact ⟨_, _, htask, .leave hdone⟩
  | called hdone => exact ⟨_, _, htask, .leave hdone⟩
  | finished => exact ⟨_, _, htask, .done⟩

end InLine

end Crew

end GuestControl
