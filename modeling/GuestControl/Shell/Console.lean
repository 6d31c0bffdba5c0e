import GuestControl.Pipeline.Script
import GuestControl.Shell.Process
import GuestControl.Task
import GuestControl.Turnstile.Settling

/-!
# The shell as surroundings

A console answers requests by running scripts in the shell: pipelines in
wrapped form, and three scripts for the management service. Waiting for a
status is asking for it again and again, at least once, until the service
reports it, asking fails or the time is over.
-/

namespace GuestControl.Shell

structure Console where
  program : String
  service : String
  /-- What the decoder says of a printed text that it refuses. -/
  wording : String → String

namespace Console

def invocation (c : Console) (script : String) : Invocation :=
  { program := c.program
    arguments := ["-NoProfile", "-NonInteractive", "-Command", script] }

-- ---------------------------------------------------------------------------
-- The management service
-- ---------------------------------------------------------------------------

def statusScript (c : Console) : String :=
  "(Get-Service -Name " ++ Text.Quoted.literal c.service ++ " -ErrorAction Stop).Status.ToString()"

def startScript (c : Console) : String :=
  "Start-Service -Name " ++ Text.Quoted.literal c.service ++ " -ErrorAction Stop"

def resumeScript (c : Console) : String :=
  "Resume-Service -Name " ++ Text.Quoted.literal c.service ++ " -ErrorAction Stop"

def serviceReply : Run → Except ServiceError Ended
  | .refused reason => .error (.io reason)
  | .ended e => if e.succeeded then .ok e else .error (.command e.complaint)

def query (c : Console) (s : Station) : Except ServiceError (Service.Status × Ended) × Station :=
  let (r, s) := s.run (c.invocation c.statusScript)
  (do
    let e ← serviceReply r
    let status ← Service.Status.read e.printed
    .ok (status, e), s)

def status (c : Console) (s : Station) : Except ServiceError Service.Status × Station :=
  let (r, s) := c.query s
  (r.map (·.1), s)

def start (c : Console) (s : Station) : Except ServiceError Unit × Station :=
  let (r, s) := s.run (c.invocation c.startScript)
  ((serviceReply r).map fun _ => (), s)

def resume (c : Console) (s : Station) : Except ServiceError Unit × Station :=
  let (r, s) := s.run (c.invocation c.resumeScript)
  ((serviceReply r).map fun _ => (), s)

/-- Asks until the status is reported or the time is over; `elapsed` is the
time since the wait began. -/
def waitFor (c : Console) (target : Service.Status) (limit : Duration) :
    Nat → Nat → Station → Except ServiceError Bool × Station
  | 0, _, s => (.ok false, s)
  | fuel + 1, elapsed, s =>
    match c.query s with
    | (.error e, s) => (.error e, s)
    | (.ok (status, e), s) =>
      let elapsed := elapsed + e.took.nanoseconds
      if status = target then (.ok true, s)
      else if limit.nanoseconds ≤ elapsed then (.ok false, s)
      else c.waitFor target limit fuel elapsed s

/-- Waits for a status. When nothing more is known of the processes to come,
the next one prints nothing, which is no status: so many attempts suffice. -/
def wait (c : Console) (target : Service.Status) (limit : Duration) (s : Station) :
    Except ServiceError Bool × Station :=
  c.waitFor target limit (s.runs.length + 1) 0 s

-- ---------------------------------------------------------------------------
-- Pipelines
-- ---------------------------------------------------------------------------

/-- The status that stands for a process without one. -/
def noStatus : Int := -1

def outcome (c : Console) : Run → Except ExecutorError Outcome
  | .refused reason => .error (.launch c.program reason)
  | .ended e =>
    if e.succeeded then decodeOutput c.wording (Text.Utf8.lenient e.output)
    else .error (.exit (e.status.getD noStatus) e.complaint)

def execute (c : Console) (p : Pipeline) (mode : Mode) (s : Station) :
    Except ExecutorError Outcome × Station :=
  let (r, s) := s.run (c.invocation (Pipeline.wrap (p.script mode)))
  (c.outcome r, s)

-- ---------------------------------------------------------------------------
-- Calls
-- ---------------------------------------------------------------------------

structure Site where
  station : Station
  turnstile : Turnstile.State := .init 1

def onStation {α : Type} (site : Site) (f : Station → α × Station) : α × Site :=
  let (a, s) := f site.station
  (a, { site with station := s })

def world (c : Console) : Task.World Site
  | .status, site => onStation site c.status
  | .start, site => onStation site c.start
  | .resume, site => onStation site c.resume
  | .wait target limit, site => onStation site (c.wait target limit)
  | .enter id, site => ((), { site with turnstile := site.turnstile.arrive 0 id })
  | .leave _, site => ((), { site with turnstile := site.turnstile.depart 0 })
  | .execute p mode, site =>
    onStation site fun s =>
      match c.execute p mode s with
      | (.ok o, s) => (.finished o, s)
      | (.error e, s) => (.failed e, s)

end Console

end GuestControl.Shell
