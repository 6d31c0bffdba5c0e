import GuestControl.Turnstile.Settling

/-!
# Named workers at the turnstiles

Workers come with a name, ask for a slot, hold it and give it back, in the
order of a script. Each command is carried out when everything has settled.
-/

namespace GuestControl.Turnstile

inductive Command where
  | acquire (worker : String) (id : Guid)
  /-- The worker gives its slot back, of itself or because it crashed. -/
  | release (worker : String)

inductive Refusal where
  | busy
  | notHolder
  deriving DecidableEq

structure Scene where
  state : State
  names : List String
  /-- The threads that have been started, the earliest first. -/
  started : List Nat
  /-- The machines that have been asked for, the earliest first. -/
  ids : List Guid

namespace Scene

def init : Scene := { state := .init 0, names := [], started := [], ids := [] }

structure View where
  holders : List (String × Guid)
  pending : List (Guid × Nat)
  active : Nat

/-- The number of a worker; a new one for a new name. -/
def number (s : Scene) (worker : String) : Nat := s.names.idxOf worker

def withWorker (s : Scene) (worker : String) : Scene :=
  if s.names.contains worker then s
  else { s with names := s.names ++ [worker], state := s.state.join }

def withId (s : Scene) (id : Guid) : Scene :=
  if s.ids.contains id then s else { s with ids := s.ids ++ [id] }

def perform (s : Scene) : Command → Scene × Option Refusal
  | .acquire worker id =>
    let s := s.withWorker worker
    let t := s.number worker
    if s.state.isIdle t then
      let s := s.withId id
      ({ s with state := s.state.arrive t id, started := s.started.erase t ++ [t] }, none)
    else (s, some .busy)
  | .release worker =>
    let t := s.number worker
    if s.state.holds t then ({ s with state := s.state.depart t }, none)
    else (s, some .notHolder)

def view (s : Scene) : View :=
  { holders := s.names.zipIdx.filterMap fun (name, t) =>
      (s.state.heldBy? t).map fun id => (name, id)
    pending := (s.ids.mergeSort fun a b => !b.before a).map fun id => (id, s.state.pending id)
    active := s.state.active }

def play (s : Scene) : List Command → List (View × Option Refusal) × Scene
  | [] => ([], s)
  | c :: cs =>
    let (s, refusal) := s.perform c
    let (shown, last) := s.play cs
    ((s.view, refusal) :: shown, last)

/-- Releases one holder after the other, always the one started first; gives
each with its machine and how many are left there. -/
def drain : Nat → Scene → List (String × Guid × Nat) × Scene
  | 0, s => ([], s)
  | fuel + 1, s =>
    match s.started.find? s.state.holds with
    | none => ([], s)
    | some t =>
      match s.state.heldBy? t, s.names[t]? with
      | some id, some name =>
        let s := { s with state := s.state.depart t }
        let (rest, last) := drain fuel s
        ((name, id, s.state.pending id) :: rest, last)
      | _, _ => ([], s)

end Scene

end GuestControl.Turnstile
