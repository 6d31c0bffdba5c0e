import GuestControl.Task
import GuestControl.Turnstile.Settling

/-!
# Rehearsals

Surroundings with prepared replies. The service and the executor answer from
queues, with a default when a queue is empty, and keep a log of what they
were asked. The slots are real, with one thread.
-/

namespace GuestControl

inductive ServiceCall where
  | status
  | start
  | resume
  | wait (target : Service.Status) (limit : Duration)
  deriving DecidableEq

def ServiceCall.text : ServiceCall → String
  | .status => "status"
  | .start => "start"
  | .resume => "resume"
  | .wait target limit =>
    "wait " ++ target.name ++ " " ++ Text.Numeral.decimal limit.nanoseconds ++ "ns"

structure Rehearsal where
  statuses : List (Except ServiceError Service.Status) := []
  starts : List (Except ServiceError Unit) := []
  resumes : List (Except ServiceError Unit) := []
  waits : List (Except ServiceError Bool) := []
  executions : List Execution := []
  /-- What the service was asked since the log was last taken. -/
  serviceLog : List ServiceCall := []
  pipelineLog : List (Pipeline × Mode) := []
  turnstile : Turnstile.State := .init 1

namespace Rehearsal

def pop {α : Type} (default : α) : List α → α × List α
  | [] => (default, [])
  | a :: rest => (a, rest)

def noteService (r : Rehearsal) (c : ServiceCall) : Rehearsal :=
  { r with serviceLog := r.serviceLog ++ [c] }

/-- Replies come from the queues, and from an empty queue the usual one. -/
def world : Task.World Rehearsal
  | .status, r =>
    let (reply, rest) := pop (Request.usual .status) r.statuses
    (reply, { r with statuses := rest }.noteService .status)
  | .start, r =>
    let (reply, rest) := pop (Request.usual .start) r.starts
    (reply, { r with starts := rest }.noteService .start)
  | .resume, r =>
    let (reply, rest) := pop (Request.usual .resume) r.resumes
    (reply, { r with resumes := rest }.noteService .resume)
  | .wait target limit, r =>
    let (reply, rest) := pop (Request.usual (.wait target limit)) r.waits
    (reply, { r with waits := rest }.noteService (.wait target limit))
  | .enter id, r => ((), { r with turnstile := r.turnstile.arrive 0 id })
  | .leave _, r => ((), { r with turnstile := r.turnstile.depart 0 })
  | .execute p mode, r =>
    let (reply, rest) := pop (Request.usual (.execute p mode)) r.executions
    (reply, { r with executions := rest, pipelineLog := r.pipelineLog ++ [(p, mode)] })

def takeLogs (r : Rehearsal) : (List ServiceCall × List (Pipeline × Mode)) × Rehearsal :=
  ((r.serviceLog, r.pipelineLog), { r with serviceLog := [], pipelineLog := [] })

def play {α : Type} (t : Task α) (r : Rehearsal) : α × Rehearsal := t.run world r

end Rehearsal

end GuestControl
