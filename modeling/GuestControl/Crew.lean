import GuestControl.Task
import GuestControl.Turnstile.Settling

/-!
# Crews

Several calls at once, each on a thread of its own and all on the same
turnstiles. A thread whose call asks for a slot or gives one back takes the
steps of the turnstile one by one, in any order with the steps of the
others; every other request is answered from outside. `settle` lets all
threads go on until each has ended, waits for a slot or runs a pipeline.
-/

namespace GuestControl

structure Crew (α : Type) where
  turnstile : Turnstile.State
  tasks : List (Task α)

inductive Activity (α : Type) where
  | executing (pipeline : Pipeline)
  | waiting
  | finished (result : α)

namespace Crew

variable {α : Type}

def empty : Crew α := { turnstile := .init 0, tasks := [] }

def join (c : Crew α) (t : Task α) : Crew α :=
  { turnstile := c.turnstile.join, tasks := c.tasks ++ [t] }

def setTask (c : Crew α) (t : Nat) (task : Task α) : Crew α :=
  { c with tasks := c.tasks.set t task }

-- ---------------------------------------------------------------------------
-- Steps
-- ---------------------------------------------------------------------------

/-- A step of a thread at the turnstile, if its call asks for such a step. The
call goes on once the slot is held, or once the thread has signed off. -/
def turn (c : Crew α) (t : Nat) (a : Turnstile.Act) : Option (Crew α) := do
  let task ← c.tasks[t]?
  let s ← c.turnstile.step t a
  let c := { c with turnstile := s }
  match task, a with
  | .ask (.enter id) _, .draw id' => if id = id' then some c else none
  | .ask (.enter _) next, .look => some (if s.holds t then c.setTask t (next ()) else c)
  | .ask (.enter _) _, .rouse => some c
  | .ask (.leave _) _, .advance => some c
  | .ask (.leave _) _, .call => some c
  | .ask (.leave _) next, .sign => some (c.setTask t (next ()))
  | _, _ => none

def reply (c : Crew α) (t : Nat) (replies : (q : Request) → q.Reply) : Option (Crew α) :=
  match c.tasks[t]? with
  | some (.ask (.enter _) _) | some (.ask (.leave _) _) => none
  | some (.ask q next) => some (c.setTask t (next (replies q)))
  | _ => none

-- ---------------------------------------------------------------------------
-- Settling
-- ---------------------------------------------------------------------------

/-- The step at the turnstile that a thread can take without being roused. -/
def nextAct? (request : Request) (phase : Turnstile.Phase) : Option Turnstile.Act :=
  match request, phase with
  | .enter id, .idle => some (.draw id)
  | .enter _, .arriving .. => some .look
  | .leave _, .holding _ => some .advance
  | .leave _, .advanced _ => some .call
  | .leave _, .called _ => some .sign
  | _, _ => none

/-- What a thread does of itself. The service replies as usual; a pipeline stays open. -/
def own? (c : Crew α) (t : Nat) : Option (Crew α) :=
  match c.tasks[t]?, c.turnstile.threads[t]? with
  | some (.ask (.execute ..) _), _ => none
  | some (.ask (.enter id) _), some p => (nextAct? (.enter id) p).bind (c.turn t)
  | some (.ask (.leave id) _), some p => (nextAct? (.leave id) p).bind (c.turn t)
  | some (.ask _ _), _ => c.reply t Request.usual
  | _, _ => none

/-- A bound on the steps to a settled crew: each request takes three steps at
most, and each slot given back makes every thread look once more. -/
def work (c : Crew α) : Nat :=
  c.tasks.foldl (fun n t => n + t.length * (c.tasks.length + 3)) c.turnstile.work

def settleFor : Nat → Crew α → Crew α
  | 0, c => c
  | fuel + 1, c =>
    match (List.range c.tasks.length).findSome? c.own? with
    | some c => settleFor fuel c
    | none => c

def settle (c : Crew α) : Crew α := settleFor c.work c

def start (c : Crew α) (t : Task α) : Crew α := (c.join t).settle

def finish (c : Crew α) (t : Nat) (e : Execution) : Option (Crew α) :=
  match c.tasks[t]? with
  | some (.ask (.execute _ _) next) => some (c.setTask t (next e)).settle
  | _ => none

-- ---------------------------------------------------------------------------
-- What can be seen
-- ---------------------------------------------------------------------------

def activity : Task α → Activity α
  | .ask (.execute p _) _ => .executing p
  | .ask _ _ => .waiting
  | .done a => .finished a

def activities (c : Crew α) : List (Activity α) := c.tasks.map activity

def isExecuting : Task α → Bool
  | .ask (.execute ..) _ => true
  | _ => false

def overlap (c : Crew α) : Nat := c.tasks.countP isExecuting

def peak (history : List (Crew α)) : Nat := (history.map overlap).foldl Nat.max 0

def drainFor : Nat → Crew α → List (Crew α)
  | 0, _ => []
  | fuel + 1, c =>
    match (c.tasks.findIdx? isExecuting).bind fun t => c.finish t (.finished {}) with
    | some c => c :: drainFor fuel c
    | none => []

/-- Ends all pipelines that still run, and those that follow, with nothing
returned, and gives the crew after each. -/
def drain (c : Crew α) : List (Crew α) := drainFor (c.tasks.foldl (fun n t => n + t.length) 0) c

end Crew

end GuestControl
