import GuestControl.Duration
import GuestControl.Text.Blank
import GuestControl.Text.Utf8

/-!
# Processes

Programs are run to their end, one after the other. A station knows which
programs exist and what the next processes come to; it keeps a log of what
was started.
-/

namespace GuestControl.Shell

structure Ended where
  /-- The exit status; none if a signal ended the process. -/
  status : Option Int := some 0
  output : List UInt8 := []
  complaints : List UInt8 := []
  /-- The time on the clock from the start before this one to the end of this one. -/
  took : Duration := ⟨0⟩
  deriving Inhabited

namespace Ended

def succeeded (e : Ended) : Bool := e.status == some 0

def printed (e : Ended) : String := Text.trim (Text.Utf8.lenient e.output)

def complaint (e : Ended) : String := Text.trim (Text.Utf8.lenient e.complaints)

end Ended

inductive Run where
  | refused (reason : String)
  | ended (e : Ended)

structure Invocation where
  program : String
  arguments : List String

/-- Program and arguments are handed over ended by the character NUL, so none
of them can hold it. -/
def Invocation.holdsNul (i : Invocation) : Bool :=
  (i.program :: i.arguments).any fun s => s.toList.any (·.toNat == 0)

structure Station where
  programs : List String
  /-- What the next processes come to; those after them print nothing. -/
  runs : List Run
  log : List Invocation

namespace Station

/-- Why a program that does not exist cannot be launched. -/
def absent : String := "No such file or directory (os error 2)"

/-- Why an invocation that holds NUL cannot be launched. -/
def unfit : String := "nul byte found in provided data"

def run (i : Invocation) (s : Station) : Run × Station :=
  if i.holdsNul then (.refused unfit, s)
  else if s.programs.contains i.program then
    let s := { s with log := s.log ++ [i] }
    match s.runs with
    | [] => (.ended {}, s)
    | r :: rest => (r, { s with runs := rest })
  else (.refused absent, s)

def takeLog (s : Station) : List Invocation × Station := (s.log, { s with log := [] })

end Station

end GuestControl.Shell
