import GuestControl.Task

/-!
# The readiness gate

Before every operation the management service must be running. A service on
its way is waited for, a stopped one started, a paused one resumed; each
transition is waited for no longer than the gate's limit. The first thing
that goes wrong ends the check.
-/

namespace GuestControl.Service

structure Gate where
  service : String
  limit : Duration
  deriving Inhabited

namespace Gate

/-- A check of the service, ending in the failure that stopped it. -/
abbrev Check := Task (Except ServiceError Unit)

def await (g : Gate) (target : Status) (next : Check) : Check :=
  .ask (.wait target g.limit) fun reply =>
    match reply with
    | .ok true => next
    | .ok false => .done (.error (.timeout target g.limit))
    | .error e => .done (.error e)

def awaitRunning (g : Gate) : Check := g.await .running (.done (.ok ()))

def start (g : Gate) : Check :=
  .ask .start fun reply =>
    match reply with
    | .ok () => g.awaitRunning
    | .error e => .done (.error e)

def resume (g : Gate) : Check :=
  .ask .resume fun reply =>
    match reply with
    | .ok () => g.awaitRunning
    | .error e => .done (.error e)

def fromStatus (g : Gate) : Status → Check
  | .running => .done (.ok ())
  | .startPending | .continuePending => g.awaitRunning
  | .stopPending => g.await .stopped g.start
  | .stopped => g.start
  | .pausePending => g.await .paused g.resume
  | .paused => g.resume

def drive (g : Gate) : Check :=
  .ask .status fun reply =>
    match reply with
    | .ok status => g.fromStatus status
    | .error e => .done (.error e)

/-- Ends once the service is seen running; any failure means that the service
is unavailable. -/
def ensureRunning (g : Gate) : Call Unit :=
  Task.bind g.drive fun checked =>
    match checked with
    | .ok () => Call.pure ()
    | .error cause => Call.fail (.serviceUnavailable g.service cause)

end Gate

end GuestControl.Service
