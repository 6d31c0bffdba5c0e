import GuestControl.Text.Ascii
import GuestControl.Text.Blank

/-!
# Status of a service
-/

namespace GuestControl.Service

inductive Status where
  | stopped
  | startPending
  | stopPending
  | running
  | continuePending
  | pausePending
  | paused
  deriving DecidableEq, Repr

namespace Status

def name : Status → String
  | stopped => "Stopped"
  | startPending => "StartPending"
  | stopPending => "StopPending"
  | running => "Running"
  | continuePending => "ContinuePending"
  | pausePending => "PausePending"
  | paused => "Paused"

def all : List Status :=
  [stopped, startPending, stopPending, running, continuePending, pausePending, paused]

/-- The status of a name, without regard to blanks around it and to case. -/
def parse? (s : String) : Option Status :=
  all.find? fun status => Text.sameLetters status.name (Text.trim s)

end Status

end GuestControl.Service
