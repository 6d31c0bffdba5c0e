import GuestControl.Turnstile.State

/-!
# Settling

Between two commands from outside, threads take the steps that are theirs to
take: who is awake looks, who has advanced the counter calls, who has called
signs off. When no such step is left the state is settled.
-/

namespace GuestControl.Turnstile

/-- The step that a thread takes of itself. -/
def Phase.ownAct? : Phase → Option Act
  | .arriving .. => some .look
  | .advanced _ => some .call
  | .called _ => some .sign
  | _ => none

/-- A bound on the steps of its own that a thread causes, among `n` threads: a
call wakes `n` threads at most. -/
def Phase.work (n : Nat) : Phase → Nat
  | .arriving .. => 1
  | .advanced _ => n + 2
  | .called _ => 1
  | _ => 0

namespace State

def work (s : State) : Nat := s.threads.foldl (fun n p => n + p.work s.threads.length) 0

def nextOwn? (s : State) : Option (Nat × Act) :=
  (s.threads.zipIdx.findSome? fun (p, t) => p.ownAct?.map fun a => (t, a))

def settleFor : Nat → State → State
  | 0, s => s
  | fuel + 1, s =>
    match s.nextOwn? with
    | none => s
    | some (t, a) =>
      match s.step t a with
      | none => s
      | some s => settleFor fuel s

def settle (s : State) : State := settleFor s.work s

def arrive (s : State) (t : Nat) (id : Guid) : State :=
  match s.step t (.draw id) with
  | some s => s.settle
  | none => s

def depart (s : State) (t : Nat) : State :=
  match s.step t .advance with
  | some s => s.settle
  | none => s

end State

end GuestControl.Turnstile
