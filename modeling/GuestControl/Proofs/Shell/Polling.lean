import GuestControl.Proofs.Text.Trimming
import GuestControl.Shell.Console

/-!
# Waiting for a status

To wait is to poll: the shell is launched for the status of the service again and
again. The first poll that goes wrong, reports the status, or finds that the time is
over decides; there is none after it. So there is at least one, and no more than it
takes until the clock reaches the limit.
-/

namespace GuestControl.Shell

open Service (Status)

-- ---------------------------------------------------------------------------
-- Launches
-- ---------------------------------------------------------------------------

inductive Deed where
  | query
  | start
  | resume
  deriving DecidableEq

structure Launch where
  deed : Deed
  run : Run

namespace Launch

def fault? : Launch → Option ServiceError
  | ⟨_, .refused reason⟩ => some (.io reason)
  | ⟨deed, .ended e⟩ =>
    if e.succeeded = false then some (.command e.complaint)
    else if deed = .query ∧ Status.parse? e.printed = none then some (.unknownStatus e.printed)
    else none

def reported? : Launch → Option Status
  | ⟨.query, .ended e⟩ => if e.succeeded then Status.parse? e.printed else none
  | _ => none

def took : Launch → Nat
  | ⟨_, .refused _⟩ => 0
  | ⟨_, .ended e⟩ => e.took.nanoseconds

end Launch

def elapsed : List Launch → Nat
  | [] => 0
  | l :: launches => l.took + elapsed launches

namespace Console

def script (c : Console) : Deed → String
  | .query => c.statusScript
  | .start => c.startScript
  | .resume => c.resumeScript

def launch (c : Console) : List Deed → Station → List Launch × Station
  | [], s => ([], s)
  | d :: deeds, s =>
    let r := s.run (c.invocation (c.script d))
    (⟨d, r.1⟩ :: (c.launch deeds r.2).1, (c.launch deeds r.2).2)

def polls (c : Console) (n : Nat) (s : Station) : List Launch × Station :=
  c.launch (.replicate n .query) s

end Console

-- ---------------------------------------------------------------------------
-- A single poll
-- ---------------------------------------------------------------------------

variable {c : Console} {s : Station} {i : Invocation} {target status : Status} {limit : Duration}
  {t : Nat} {e : Ended} {l : Launch} {polls earlier later : List Launch}
  {result : Except ServiceError Bool}

/-- What a poll decides, if the clock stands at `t` right after it. -/
def Launch.verdict? (target : Status) (limit : Duration) (t : Nat) (l : Launch) :
    Option (Except ServiceError Bool) :=
  match l.fault? with
  | some cause => some (.error cause)
  | none =>
    if l.reported? = some target then some (.ok true)
    else if limit.nanoseconds ≤ t then some (.ok false)
    else none

/-- The first poll that decides is the last. -/
structure Polled (target : Status) (limit : Duration) (polls : List Launch)
    (result : Except ServiceError Bool) : Prop where
  decided : ∃ earlier l, polls = earlier ++ [l] ∧
    l.verdict? target limit (elapsed polls) = some result
  undecided : ∀ earlier l later, polls = earlier ++ l :: later → later ≠ [] →
    l.verdict? target limit (elapsed (earlier ++ [l])) = none

/-- As `Polled`, with the clock at `t` when the polls begin. -/
inductive PolledFrom (target : Status) (limit : Duration) :
    Nat → List Launch → Except ServiceError Bool → Prop
  | last {t : Nat} {l : Launch} {result : Except ServiceError Bool} :
      l.verdict? target limit (t + l.took) = some result → PolledFrom target limit t [l] result
  | more {t : Nat} {l : Launch} {polls : List Launch} {result : Except ServiceError Bool} :
      l.verdict? target limit (t + l.took) = none →
      PolledFrom target limit (t + l.took) polls result →
      PolledFrom target limit t (l :: polls) result

theorem PolledFrom.decided (h : PolledFrom target limit t polls result) :
    ∃ earlier l, polls = earlier ++ [l] ∧
      l.verdict? target limit (t + elapsed polls) = some result := by
  induction h with
  | @last t l result hverdict => exact ⟨[], l, rfl, by simpa [elapsed] using hverdict⟩
  | @more t l polls result _ _ ih =>
    obtain ⟨earlier, l', rfl, hverdict⟩ := ih
    exact ⟨l :: earlier, l', rfl, by simpa [elapsed, Nat.add_assoc] using hverdict⟩

theorem PolledFrom.undecided (h : PolledFrom target limit t polls result)
    (hpolls : polls = earlier ++ l :: later) (hlater : later ≠ []) :
    l.verdict? target limit (t + elapsed (earlier ++ [l])) = none := by
  induction h generalizing earlier with
  | last _ =>
    cases earlier with
    | nil => cases hpolls; exact absurd rfl hlater
    | cons l' earlier => simp at hpolls
  | @more t l' polls result hverdict _ ih =>
    cases earlier with
    | nil => cases hpolls; simpa [elapsed] using hverdict
    | cons l'' earlier =>
      obtain ⟨rfl, hrest⟩ := List.cons.inj hpolls
      simpa [elapsed, Nat.add_assoc] using ih hrest

theorem PolledFrom.polled (h : PolledFrom target limit 0 polls result) :
    Polled target limit polls result where
  decided := by simpa using h.decided
  undecided earlier l later hpolls hlater := by simpa using h.undecided hpolls hlater

-- ---------------------------------------------------------------------------
-- The loop
-- ---------------------------------------------------------------------------

namespace Console

end Console

end GuestControl.Shell
