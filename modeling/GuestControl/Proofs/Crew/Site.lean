import GuestControl.Proofs.Crew.InLine
import GuestControl.Proofs.Crew.Locality
import Mathlib.Data.List.Basic

/-!
# Crews at work on a fleet

The pipelines of a crew go to an executor, which changes the fleet, while the
service runs all the time. At every moment the calls that have drawn a ticket
could be finished one after the other, in the order of their tickets: that
gives the same as running them so from the very beginning.
-/

namespace GuestControl

open Turnstile (Phase Act getElem?_set_self_of_some)
open GuestControl.Task (Inside Outside Engaged Turns Over)

variable {α σ : Type}

abbrev Executor (σ : Type) := Pipeline → Mode → Fleet σ → Execution × Fleet σ

namespace Executor

def world (x : Executor σ) : Task.World (Fleet σ)
  | .execute p mode, f => x p mode f
  | q, f => (q.usual, f)

def KeepsTo (x : Executor σ) (id : Guid) (p : Pipeline) (mode : Mode) : Prop := ActsOn id (x p mode)

def plays (x : Executor σ) (tasks : List (Task α)) (order : List Nat) :
    List (Fleet σ → α × Fleet σ) :=
  order.filterMap fun t => tasks[t]?.map (·.run x.world)

end Executor

structure Site (α σ : Type) where
  crew : Crew α
  fleet : Fleet σ

namespace Site

inductive Event where
  | turn (t : Nat) (a : Act)
  | reply (t : Nat)

def opening (calls : List (Task α)) (f : Fleet σ) : Site α σ :=
  { crew := { turnstile := .init calls.length, tasks := calls }, fleet := f }

/-- A pipeline runs in one step: what it changes and what it returns. -/
def step (x : Executor σ) (s : Site α σ) : Event → Option (Site α σ)
  | .turn t a => (s.crew.turn t a).map fun c => { s with crew := c }
  | .reply t =>
    match s.crew.tasks[t]? with
    | some (.ask q _) =>
      (s.crew.reply t fun q => (x.world q s.fleet).1).map fun c => ⟨c, (x.world q s.fleet).2⟩
    | _ => none

def Event.drawn : Event → List Nat
  | .turn t a => Crew.drawn t a
  | .reply _ => []

end Site

-- ---------------------------------------------------------------------------
-- Tasks as effects
-- ---------------------------------------------------------------------------

section
variable {x : Executor σ} {id : Guid} {task task' : Task α} {p p' : Phase} {a : Act} {t : Nat}
  {tasks : List (Task α)} {order order' : List Nat}

theorem Task.Turns.run_eq (h : Turns task p a p' task') : task'.run x.world = task.run x.world := by
  cases h with
  | _ => rfl

theorem Task.Over.run_eq {b : α} (h : Over b task) : task.run x.world = fun f => (b, f) := by
  cases h with
  | done => rfl
  | @leave id next hdone =>
    have hrun : (Task.ask (.leave id) next).run x.world = (next ()).run x.world := rfl
    rw [hrun, hdone]
    rfl

theorem Task.Inside.actsOn (h : Inside id (x.KeepsTo id) task) : ActsOn id (task.run x.world) := by
  induction h with
  | leave hdone => exact (Over.leave hdone).run_eq ▸ .pure id _
  | execute hx _ ih => exact hx.bind ih

theorem Task.Engaged.actsOn (h : Engaged id (x.KeepsTo id) p task) :
    ActsOn id (task.run x.world) := by
  cases h with
  | arriving _ hin => exact hin.actsOn
  | asleep _ hin => exact hin.actsOn
  | holding _ hin => exact hin.actsOn
  | advanced hdone => exact (Over.leave hdone).run_eq ▸ .pure id _
  | called hdone => exact (Over.leave hdone).run_eq ▸ .pure id _
  | finished => exact .pure id _

namespace Executor

theorem plays_append :
    x.plays tasks (order ++ order') = x.plays tasks order ++ x.plays tasks order' :=
  List.filterMap_append

theorem plays_cons (h : tasks[t]? = some task) :
    x.plays tasks (t :: order) = task.run x.world :: x.plays tasks order := by
  simp [plays, h]

theorem run_set (h : tasks[t]? = some task) (hrun : task'.run x.world = task.run x.world)
    (u : Nat) : (tasks.set t task')[u]?.map (·.run x.world) = tasks[u]?.map (·.run x.world) := by
  by_cases hut : t = u
  · subst hut
    rw [getElem?_set_self_of_some h, h, Option.map_some, hrun, Option.map_some]
  · rw [List.getElem?_set_ne hut]

theorem plays_set (h : tasks[t]? = some task) (hrun : task'.run x.world = task.run x.world) :
    x.plays (tasks.set t task') order = x.plays tasks order :=
  congrArg (order.filterMap ·) (funext (run_set h hrun))

theorem plays_set_of_not_mem (h : t ∉ order) :
    x.plays (tasks.set t task') order = x.plays tasks order := by
  refine List.filterMap_congr fun u hu => ?_
  have hut : t ≠ u := by
    rintro rfl
    exact h hu
  rw [List.getElem?_set_ne hut]

end Executor

end

-- ---------------------------------------------------------------------------
-- The invariant
-- ---------------------------------------------------------------------------

namespace Site

/-- The calls are in line, and what is left of them, run one after the other on
the fleet as it is, gives the same as the whole calls run so at first. -/
structure Sound (x : Executor σ) (place : Nat → Guid) (calls : List (Task α)) (f : Fleet σ)
    (order : List Nat) (s : Site α σ) : Prop where
  in_line : Crew.InLine x.KeepsTo place order s.crew
  length : s.crew.tasks.length = calls.length
  whole : ∀ t ∉ order, s.crew.tasks[t]?.map (·.run x.world) = calls[t]?.map (·.run x.world)
  serial : inTurn (x.plays s.crew.tasks order) s.fleet = inTurn (x.plays calls order) f

theorem reply_eq_some {x : Executor σ} {s s' : Site α σ} {t : Nat}
    (hs : s.step x (.reply t) = some s') :
    ∃ q next, s.crew.tasks[t]? = some (.ask q next) ∧ (∀ id, q ≠ .enter id) ∧
      (∀ id, q ≠ .leave id) ∧ s.crew.reply t (fun q => (x.world q s.fleet).1) = some s'.crew ∧
      s' = ⟨s.crew.setTask t (next (x.world q s.fleet).1), (x.world q s.fleet).2⟩ := by
  simp only [step] at hs
  split at hs
  · rename_i q next hask
    obtain ⟨c, hc, rfl⟩ := Option.map_eq_some_iff.mp hs
    obtain ⟨q', next', hask', henter, hleave, he⟩ := Crew.reply_eq_some hc
    cases hask.symm.trans hask'
    exact ⟨q, next, hask, henter, hleave, hc, by rw [he]⟩
  · cases hs

namespace Sound

variable {x : Executor σ} {place : Nat → Guid} {calls : List (Task α)} {f : Fleet σ}
  {order : List Nat} {s s' : Site α σ} {c : Crew α} {t : Nat} {a : Act}

theorem init (h : ∀ {t : Nat} {call : Task α}, calls[t]? = some call →
    Outside (place t) (x.KeepsTo (place t)) call) : Sound x place calls f [] (opening calls f) where
  in_line := .init h
  length := rfl
  whole _ _ := rfl
  serial := rfl

theorem turn (h : Sound x place calls f order s) (hs : s.crew.turn t a = some c) :
    Sound x place calls f (order ++ Crew.drawn t a) { s with crew := c } := by
  have hline := h.in_line.turn hs
  obtain ⟨task, task', p, p', ts, htask, hp, hstep, hp', ht, rfl⟩ := Crew.turn_eq_some hs
  have hrun := Executor.run_set (x := x) htask ht.run_eq
  refine ⟨hline, ?_, fun u hu => ?_, ?_⟩
  · exact List.length_set.trans h.length
  · exact (hrun u).trans (h.whole u fun hold => hu (List.mem_append_left _ hold))
  · show inTurn (x.plays (s.crew.tasks.set t task') _) s.fleet = _
    rw [Executor.plays_set htask ht.run_eq, Executor.plays_append, Executor.plays_append,
      inTurn_append, inTurn_append, h.serial]
    suffices x.plays s.crew.tasks (Crew.drawn t a) = x.plays calls (Crew.drawn t a) by rw [this]
    rcases (h.in_line.turn_engaged htask hp ht).2 with ⟨-, ha⟩ | ⟨hmem, rfl⟩
    · rw [Crew.drawn_eq_nil ha]
      rfl
    · simp only [Executor.plays, Crew.drawn, List.filterMap_cons, List.filterMap_nil,
        h.whole t hmem]

/-- Whatever comes before a thread that holds its slot does not meddle with the
pipelines on its machine. -/
theorem independent (h : Sound x place calls f (pre ++ t :: post) s)
    (ht : s.crew.turnstile.threads[t]? = some (.holding slot)) (hid : slot.id = place t)
    (hx : x.KeepsTo (place t) p mode) :
    Independent (inTurn (x.plays s.crew.tasks pre)) (x p mode) := by
  refine .inTurn fun e he => ?_
  obtain ⟨u, hu, he⟩ := List.mem_filterMap.mp he
  by_cases hplace : place u = place t
  · obtain ⟨task, b, htask, hover⟩ := h.in_line.over_ahead ht hid hu hplace
    rw [htask, Option.map_some, hover.run_eq] at he
    exact Option.some.inj he ▸ .pure b _
  · obtain ⟨_, task, -, htask, hengaged⟩ := h.in_line.engaged (List.mem_append_left _ hu)
    rw [htask] at he
    exact Option.some.inj he ▸ hengaged.actsOn.independent hx hplace

theorem reply (h : Sound x place calls f order s) (hs : s.step x (.reply t) = some s') :
    Sound x place calls f order s' := by
  obtain ⟨q, next, hask, henter, hleave, hreply, hs'⟩ := reply_eq_some hs
  have hline := h.in_line.reply rfl hreply
  subst hs'
  rcases h.in_line.asks hask henter hleave with ⟨-, rfl⟩ | ⟨hmem, p, mode, slot, rfl, hx, hp, hid⟩
  · -- The status is no news, and the fleet stays as it is.
    have hrun : (next (x.world .status s.fleet).1).run x.world =
        (Task.ask .status next).run x.world := rfl
    refine ⟨hline, List.length_set.trans h.length, fun u hu => ?_, ?_⟩
    · exact (Executor.run_set hask hrun u).trans (h.whole u hu)
    · show inTurn (x.plays (s.crew.tasks.set t _) order) _ = _
      rw [Executor.plays_set hask hrun]
      exact h.serial
  · obtain ⟨pre, post, rfl⟩ := List.append_of_mem hmem
    obtain ⟨-, hnodup, hdisjoint⟩ := List.nodup_append.mp h.in_line.nodup
    have hpre : t ∉ pre := fun ht => hdisjoint t ht t List.mem_cons_self rfl
    have hpost : t ∉ post := (List.nodup_cons.mp hnodup).1
    refine ⟨hline, List.length_set.trans h.length, fun u hu => ?_, ?_⟩
    · have hut : t ≠ u := by
        rintro rfl
        exact hu hmem
      rw [← h.whole u hu]
      exact congrArg _ (List.getElem?_set_ne hut)
    · show inTurn (x.plays (s.crew.tasks.set t _) _) _ = _
      rw [← h.serial, Executor.plays_append, Executor.plays_append, Executor.plays_cons hask,
        Executor.plays_cons (getElem?_set_self_of_some hask), Executor.plays_set_of_not_mem hpre,
        Executor.plays_set_of_not_mem hpost]
      -- What came before leaves room for the pipeline ahead of it.
      exact inTurn_ahead (k := fun e => (next e).run x.world) (h.independent hp hid hx) s.fleet

theorem step (h : Sound x place calls f order s) {e : Event} (hs : s.step x e = some s') :
    Sound x place calls f (order ++ e.drawn) s' := by
  cases e with
  | turn t a =>
    obtain ⟨c, hc, rfl⟩ := Option.map_eq_some_iff.mp hs
    exact h.turn hc
  | reply t =>
    show Sound x place calls f (order ++ []) s'
    rw [List.append_nil]
    exact h.reply hs

end Sound

end Site

end GuestControl
