import GuestControl.Json.Decoder
import GuestControl.Record.Conversion

/-!
# Machine states

The shell names a machine's state or numbers it. Several of its states are
one state here, and what is in no table is `unknown`.
-/

namespace GuestControl

namespace Machine

inductive State where
  | other
  | running
  | off
  | stopping
  | saved
  | paused
  | starting
  | reset
  | saving
  | pausing
  | resuming
  | unknown
  deriving DecidableEq, Repr, Inhabited

namespace State

def name : State → String
  | other => "Other"
  | running => "Running"
  | off => "Off"
  | stopping => "Stopping"
  | saved => "Saved"
  | paused => "Paused"
  | starting => "Starting"
  | reset => "Reset"
  | saving => "Saving"
  | pausing => "Pausing"
  | resuming => "Resuming"
  | unknown => "Unknown"

def table : List (String × Int × State) :=
  [("Other", 1, other), ("Running", 2, running), ("Off", 3, off), ("Stopping", 4, stopping),
    ("Saved", 6, saved), ("Paused", 9, paused), ("Starting", 10, starting), ("Reset", 11, reset),
    ("Saving", 32773, saving), ("Pausing", 32776, pausing), ("Resuming", 32777, resuming),
    ("FastSaved", 32779, saved), ("FastSaving", 32780, saving),
    ("ForceShutdown", 32781, other), ("ForceReboot", 32782, other),
    ("Hibernated", 32783, other), ("ComponentServicing", 32784, other),
    ("RunningCritical", 32785, other), ("OffCritical", 32786, other),
    ("StoppingCritical", 32787, other), ("SavedCritical", 32788, other),
    ("PausedCritical", 32789, other), ("StartingCritical", 32790, other),
    ("ResetCritical", 32791, other), ("SavingCritical", 32792, other),
    ("PausingCritical", 32793, other), ("ResumingCritical", 32794, other),
    ("FastSavedCritical", 32795, other), ("FastSavingCritical", 32796, other)]

/-- The state of a name, without regard to blanks around it and to case. -/
def ofName (s : String) : State :=
  match table.find? fun row => Text.sameLetters row.1 (Text.trim s) with
  | some row => row.2.2
  | none => unknown

def ofCode (code : Int) : State :=
  match table.find? fun row => row.2.1 == code with
  | some row => row.2.2
  | none => unknown

def isRunning (s : State) : Bool := s == running

def isOff (s : State) : Bool := s == off

def isTransitioning : State → Bool
  | starting | stopping | saving | pausing | resuming | reset => true
  | _ => false

def all : List State :=
  [other, running, off, stopping, saved, paused, starting, reset, saving, pausing, resuming,
    unknown]

def decoder : Json.Decoder State := .choice (all.map fun s => (s.name, s))

def toDoc (s : State) : Json.Doc := .text s.name

def ofValue (v : Value) : Except Mismatch State :=
  match v with
  | .string s => .ok (ofName s)
  | .int _ | .uint _ => v.toInt64.map fun i => ofCode i.toInt
  | _ => .error (.of "vm state" v)

end State

inductive StopKind where
  | default
  | save
  | turnOff
  deriving DecidableEq, Repr, Inhabited

namespace StopKind

def name : StopKind → String
  | default => "default"
  | save => "save"
  | turnOff => "turnoff"

/-- The state that the machine must report when the stop is done. -/
def target : StopKind → State
  | default | turnOff => .off
  | save => .saved

def names : List (String × StopKind) :=
  [("default", default), ("save", save), ("turnoff", turnOff), ("turn-off", turnOff),
    ("turn_off", turnOff)]

def decoder : Json.Decoder StopKind := .choice names

def toDoc (k : StopKind) : Json.Doc := .text k.name

end StopKind

end Machine

end GuestControl
