import GuestControl.Pipeline.Basic
import GuestControl.Shell.Envelope

/-!
# Calls as dialogues

A call does nothing by itself: it asks its surroundings one request after
the other and goes on with each reply. `Task` is such a dialogue, `Call` one
that may also end in an error or be torn down by a crash. How requests are
answered is left open; `Task.run` answers them from a state, and other
modules interleave several tasks or answer from a shell.
-/

namespace GuestControl

inductive Execution where
  | finished (outcome : Outcome)
  | failed (e : ExecutorError)
  /-- The executor crashed while the pipeline ran; the call is unwound. -/
  | crashed (report : String)

/-- What a call may ask of its surroundings. -/
inductive Request where
  | status
  | start
  | resume
  /-- Waits until the service reports a status, at most as long as the limit. -/
  | wait (target : Service.Status) (limit : Duration)
  /-- Takes the slot of a machine, waiting until it is free. -/
  | enter (id : Guid)
  | leave (id : Guid)
  | execute (pipeline : Pipeline) (mode : Mode)

def Request.Reply : Request → Type
  | .status => Except ServiceError Service.Status
  | .start | .resume => Except ServiceError Unit
  | .wait .. => Except ServiceError Bool
  | .enter _ | .leave _ => Unit
  | .execute .. => Execution

/-- The reply where nothing is amiss: the service runs, and pipelines return nothing. -/
def Request.usual : (q : Request) → q.Reply
  | .status => .ok .running
  | .start | .resume => .ok ()
  | .wait .. => .ok true
  | .enter _ | .leave _ => ()
  | .execute .. => .finished {}

inductive Task (α : Type) where
  | done (result : α)
  | ask (request : Request) (next : request.Reply → Task α)

namespace Task

variable {α β σ : Type}

def bind : Task α → (α → Task β) → Task β
  | .done a, f => f a
  | .ask q next, f => .ask q fun reply => (next reply).bind f

def map (f : α → β) (t : Task α) : Task β := t.bind fun a => .done (f a)

/-- Answers requests from a state that each answer may change. -/
abbrev World (σ : Type) := (q : Request) → σ → q.Reply × σ

def run (world : World σ) : Task α → σ → α × σ
  | .done a, s => (a, s)
  | .ask q next, s =>
    let (reply, s) := world q s
    (next reply).run world s

/-- How many requests a task makes when all replies are the usual ones. -/
def length : Task α → Nat
  | .done _ => 0
  | .ask q next => (next q.usual).length + 1

theorem bind_assoc {γ : Type} (t : Task α) (f : α → Task β) (g : β → Task γ) :
    (t.bind f).bind g = t.bind fun a => (f a).bind g := by
  induction t with
  | done => rfl
  | ask q next ih => simp only [bind, ih]

theorem run_bind (world : World σ) (t : Task α) (f : α → Task β) (s : σ) :
    (t.bind f).run world s = (f (t.run world s).1).run world (t.run world s).2 := by
  induction t generalizing s with
  | done => rfl
  | ask q next ih => simp only [bind, run, ih]

end Task

inductive Ending (α : Type) where
  | value (a : α)
  | error (e : Error)
  | crashed (report : String)

def Ending.map {α β : Type} (f : α → β) : Ending α → Ending β
  | .value a => .value (f a)
  | .error e => .error e
  | .crashed report => .crashed report

/-- A dialogue that may end before its time. -/
def Call (α : Type) : Type := Task (Ending α)

namespace Call

variable {α β : Type}

def ofEnding (e : Ending α) : Call α := Task.done e

def pure (a : α) : Call α := ofEnding (.value a)

def fail (e : Error) : Call α := ofEnding (.error e)

def ofExcept : Except Error α → Call α
  | .ok a => pure a
  | .error e => fail e

/-- Goes on with the value of a call; an error or a crash ends both. -/
def bind (c : Call α) (f : α → Call β) : Call β :=
  Task.bind c fun ending =>
    match ending with
    | .value a => f a
    | .error e => Task.done (.error e)
    | .crashed report => Task.done (.crashed report)

instance : Monad Call where
  pure := pure
  bind := bind

/-- Holds the slot of a machine while a call runs, and gives it back however
the call ends. -/
def holding (id : Guid) (c : Call α) : Call α :=
  Task.ask (.enter id) fun _ =>
    Task.bind c fun ending => Task.ask (.leave id) fun _ => Task.done ending

def execute (p : Pipeline) (mode : Mode) (next : Execution → Call α) : Call α :=
  Task.ask (.execute p mode) next

end Call

end GuestControl
