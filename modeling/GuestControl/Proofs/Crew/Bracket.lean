import GuestControl.Proofs.Crew.InLine
import GuestControl.Proofs.Operation.Dialogue
import GuestControl.Proofs.Turnstile.Exclusion

/-!
# What is asked under a slot

A task that takes no slot while it has one, and is not done while it has one, is at
every request under the slot that it took last and has not given back. In a crew its
thread then holds that slot at the turnstile, and no other thread does, whatever the
other threads do and whatever replies there are.
-/

namespace GuestControl

open Turnstile (Phase Act Step Reachable getElem?_set_self_of_some)

namespace Task

/-- Whatever it is told, the task has one slot at a time at most, and asks only for what
it may ask under the slot that it has. -/
inductive Bracketed {α : Type} (may : Option Guid → Request → Prop) : Option Guid → Task α → Prop
  | done (a : α) : Bracketed may none (.done a)
  | ask {held : Option Guid} {q : Request} {next : q.Reply → Task α} : q.IsSlotless →
      may held q → (∀ reply, Bracketed may held (next reply)) → Bracketed may held (.ask q next)
  | enter {id : Guid} {next : Unit → Task α} : Bracketed may (some id) (next ()) →
      Bracketed may none (.ask (.enter id) next)
  | leave {id : Guid} {next : Unit → Task α} : Bracketed may none (next ()) →
      Bracketed may (some id) (.ask (.leave id) next)

inductive Stands {α : Type} (may : Option Guid → Request → Prop) : Phase → Task α → Prop
  | idle {task : Task α} : Bracketed may none task → Stands may .idle task
  | arriving {id : Guid} {next : Unit → Task α} : slot.id = id →
      Bracketed may (some id) (next ()) → Stands may (.arriving slot k) (.ask (.enter id) next)
  | asleep {id : Guid} {next : Unit → Task α} : slot.id = id →
      Bracketed may (some id) (next ()) → Stands may (.asleep slot k) (.ask (.enter id) next)
  | holding {task : Task α} : Bracketed may (some slot.id) task → Stands may (.holding slot) task
  | advanced {id : Guid} {next : Unit → Task α} : Bracketed may none (next ()) →
      Stands may (.advanced slot) (.ask (.leave id) next)
  | called {id : Guid} {next : Unit → Task α} : Bracketed may none (next ()) →
      Stands may (.called slot) (.ask (.leave id) next)

variable {α β : Type} {may : Option Guid → Request → Prop} {held : Option Guid} {id : Guid}
  {task task' : Task α} {p p' : Phase} {a : Act} {s s' : Turnstile.State} {t u : Nat}

-- ---------------------------------------------------------------------------
-- Tasks
-- ---------------------------------------------------------------------------

theorem Bracketed.bind {f : α → Task β} (h : Bracketed may held task)
    (hf : ∀ a, Bracketed may none (f a)) : Bracketed may held (task.bind f) := by
  induction h with
  | done a => exact hf a
  | ask hq hmay _ ih => exact .ask hq hmay ih
  | enter _ ih => exact .enter ih
  | leave _ ih => exact .leave ih

theorem bracketed_of_only {P : Request → Prop} (h : Only P task)
    (hP : ∀ q, P q → q.IsSlotless ∧ may none q) : Bracketed may none task := by
  induction h with
  | done a => exact .done a
  | ask hq _ ih => exact .ask (hP _ hq).1 (hP _ hq).2 ih

theorem bracketed_holding {P : Request → Prop} {c : Call α} (h : Only P c)
    (hP : ∀ q, P q → q.IsSlotless ∧ may (some id) q) : Bracketed may none (c.holding id) := by
  refine .enter ?_
  induction h with
  | done a => exact .leave (.done a)
  | ask hq _ ih => exact .ask (hP _ hq).1 (hP _ hq).2 ih

theorem Bracketed.call_bind {c : Call α} {f : α → Call β} (h : Bracketed may none c)
    (hf : ∀ a, Bracketed may none (f a)) : Bracketed may none (c >>= f : Call β) := by
  refine Bracketed.bind h fun ending => ?_
  cases ending with
  | value a => exact hf a
  | error e => exact .done _
  | crashed report => exact .done _

-- ---------------------------------------------------------------------------
-- Threads
-- ---------------------------------------------------------------------------

theorem Stands.turn (h : Stands may p task) (ht : Turns task p a p' task') :
    Stands may p' task' := by
  cases ht with
  | draw =>
    cases h with
    | idle h =>
      cases h with
      | ask hq => exact hq.elim
      | enter h => exact .arriving rfl h
  | grant =>
    cases h with
    | arriving hid h => exact .holding (hid ▸ h)
  | sleep =>
    cases h with
    | arriving hid h => exact .asleep hid h
  | rouse =>
    cases h with
    | asleep hid h => exact .arriving hid h
  | advance =>
    cases h with
    | holding h =>
      cases h with
      | ask hq => exact hq.elim
      | leave h => exact .advanced h
  | call =>
    cases h with
    | advanced h => exact .called h
  | sign =>
    cases h with
    | called h => exact .idle h

theorem Stands.reply {q : Request} {next : q.Reply → Task α} (h : Stands may p (.ask q next))
    (hq : q.IsSlotless) (reply : q.Reply) : Stands may p (next reply) := by
  cases h with
  | idle h =>
    cases h with
    | ask _ _ h => exact .idle (h reply)
    | enter => exact hq.elim
  | holding h =>
    cases h with
    | ask _ _ h => exact .holding (h reply)
    | leave => exact hq.elim
  | arriving | asleep | advanced | called => exact hq.elim

theorem Stands.others (h : Stands may p task) (hs : Step s t a s') (hu : u ≠ t)
    (hp : s.threads[u]? = some p) : ∃ p', s'.threads[u]? = some p' ∧ Stands may p' task := by
  obtain he | ⟨slot, k, -, hk, hk'⟩ := hs.others hu
  · exact ⟨p, he.trans hp, h⟩
  · obtain rfl := Option.some.inj (hp.symm.trans hk)
    cases h with
    | asleep hid h => exact ⟨_, hk', .arriving hid h⟩

theorem Stands.allowed {q : Request} {next : q.Reply → Task α} (h : Stands may p (.ask q next))
    (hq : q.IsSlotless) (hp : s.threads[t]? = some p) : may (s.heldBy? t) q := by
  unfold Turnstile.State.heldBy?
  rw [hp]
  cases h with
  | idle h =>
    cases h with
    | ask _ hmay => exact hmay
    | enter => exact hq.elim
  | holding h =>
    cases h with
    | ask _ hmay => exact hmay
    | leave => exact hq.elim
  | arriving | asleep | advanced | called => exact hq.elim

end Task

-- ---------------------------------------------------------------------------
-- Crews
-- ---------------------------------------------------------------------------

namespace Crew

open GuestControl.Task (Bracketed Stands)

/-- What becomes of a crew: its threads take steps in any order, and get any replies. -/
inductive Becomes {α : Type} (c : Crew α) : Crew α → Prop
  | refl : Becomes c c
  | turn (t : Nat) (a : Act) {c' c'' : Crew α} : Becomes c c' → c'.turn t a = some c'' →
      Becomes c c''
  | reply (t : Nat) (replies : (q : Request) → q.Reply) {c' c'' : Crew α} : Becomes c c' →
      c'.reply t replies = some c'' → Becomes c c''

variable {α : Type} {c c' : Crew α} {t u : Nat} {may : Option Guid → Request → Prop}

def InBrackets (may : Option Guid → Request → Prop) (t : Nat) (c : Crew α) : Prop :=
  ∃ p task, c.turnstile.threads[t]? = some p ∧ c.tasks[t]? = some task ∧ Stands may p task

theorem InBrackets.turn {a : Act} (h : InBrackets may t c) (hturn : c.turn u a = some c') :
    InBrackets may t c' := by
  obtain ⟨p, task, hp, htask, hstands⟩ := h
  obtain ⟨task₁, task₂, p₁, p₂, s, htask₁, hp₁, hstep, hp₂, hturns, rfl⟩ := turn_eq_some hturn
  by_cases hu : t = u
  · subst hu
    obtain rfl := Option.some.inj (hp.symm.trans hp₁)
    obtain rfl := Option.some.inj (htask.symm.trans htask₁)
    exact ⟨p₂, task₂, hp₂, getElem?_set_self_of_some htask, hstands.turn hturns⟩
  · obtain ⟨p', hp', hstands'⟩ := hstands.others hstep hu hp
    exact ⟨p', task, hp', (List.getElem?_set_ne (Ne.symm hu)).trans htask, hstands'⟩

theorem slotless_of_ne {q : Request} (henter : ∀ id, q ≠ .enter id) (hleave : ∀ id, q ≠ .leave id) :
    q.IsSlotless := by
  cases q with
  | enter id => exact henter id rfl
  | leave id => exact hleave id rfl
  | status | start | resume | wait | execute => trivial

theorem InBrackets.reply {replies : (q : Request) → q.Reply} (h : InBrackets may t c)
    (hreply : c.reply u replies = some c') : InBrackets may t c' := by
  obtain ⟨p, task, hp, htask, hstands⟩ := h
  obtain ⟨q, next, hask, henter, hleave, rfl⟩ := reply_eq_some hreply
  by_cases hu : t = u
  · subst hu
    obtain rfl := Option.some.inj (htask.symm.trans hask)
    exact ⟨p, _, hp, getElem?_set_self_of_some htask,
      hstands.reply (slotless_of_ne henter hleave) _⟩
  · exact ⟨p, task, hp, (List.getElem?_set_ne (Ne.symm hu)).trans htask, hstands⟩

theorem Becomes.inBrackets (h : Becomes c c') (hc : InBrackets may t c) : InBrackets may t c' := by
  induction h with
  | refl => exact hc
  | turn _ _ _ hturn ih => exact ih.turn hturn
  | reply _ _ _ hreply ih => exact ih.reply hreply

theorem Becomes.reachable (h : Becomes c c') (hc : Reachable c.turnstile) :
    Reachable c'.turnstile := by
  induction h with
  | refl => exact hc
  | turn _ _ _ hturn ih =>
    obtain ⟨_, _, _, _, s, -, -, hstep, -, -, rfl⟩ := turn_eq_some hturn
    exact ih.step hstep.to_step
  | reply _ _ _ hreply ih =>
    obtain ⟨_, _, -, -, -, rfl⟩ := reply_eq_some hreply
    exact ih

/-- From the very beginning on, what a bracketed task asks is asked under the slot that its
thread holds. -/
theorem Becomes.allowed {tasks : List (Task α)} {task : Task α} {q : Request}
    {next : q.Reply → Task α} (h : Becomes ⟨.init tasks.length, tasks⟩ c)
    (htask : tasks[t]? = some task) (hbracketed : Bracketed may none task)
    (hask : c.tasks[t]? = some (.ask q next)) (hq : q.IsSlotless) :
    may (c.turnstile.heldBy? t) q := by
  have hidle : (Turnstile.State.init tasks.length).threads[t]? = some .idle :=
    List.getElem?_replicate_of_lt (List.getElem?_eq_some_iff.mp htask).1
  obtain ⟨p, task', hp, htask', hstands⟩ :=
    h.inBrackets ⟨.idle, task, hidle, htask, .idle hbracketed⟩
  obtain rfl := Option.some.inj (hask.symm.trans htask')
  exact hstands.allowed hq hp

theorem Becomes.holder_unique {tasks : List (Task α)} {id : Guid}
    (h : Becomes ⟨.init tasks.length, tasks⟩ c) (ht : c.turnstile.heldBy? t = some id)
    (hu : u ≠ t) : c.turnstile.heldBy? u ≠ some id := fun hheld =>
  hu ((h.reachable (.init _)).orderly.holder_unique hheld ht)

end Crew

end GuestControl
