import GuestControl.Proofs.Service.Gate
import GuestControl.Proofs.Shell.Polling
import Mathlib.Data.List.Chain
import Mathlib.Data.List.Forall2

/-!
# The readiness check from the shell

Each request of the check is carried out by launches of the shell, one for the status
and for each thing done to the service, and as many as there are polls for a wait. What
the check keeps between its requests is so kept between the processes: only where a
process went well there is another one, and the service is started or resumed only where
the process before reported it stopped or paused.
-/

namespace GuestControl.Shell

open Service (Gate Status)
open Service.Gate (Goes)
open GuestControl.Task (Only)

def deed : Request → Deed
  | .start => .start
  | .resume => .resume
  | _ => .query

/-- The status that is to be reported right before the shell is launched for a deed. -/
def Deed.needs? : Deed → Option Status
  | .start => some .stopped
  | .resume => some .paused
  | .query => none

structure Leads (l l' : Launch) : Prop where
  well : l.fault? = none
  seen : ∀ status, l'.deed.needs? = some status → l.reported? = some status

structure Carried (x : Exchange) (launches : List Launch) : Prop where
  deeds : ∀ l ∈ launches, l.deed = deed x.request
  /-- Only a wait may take several. -/
  single : (∀ target limit, x.request ≠ .wait target limit) → launches.length = 1
  polled : ∀ target limit result, x = ⟨.wait target limit, result⟩ →
    Polled target limit launches result
  chain : launches.IsChain Leads
  last : ∃ l, launches.getLast? = some l ∧
    (∀ cause, l.fault? = some cause → x.failure? = some cause) ∧
    ∀ status, x.shown? = some status → l.reported? = some status

-- ---------------------------------------------------------------------------
-- Requests
-- ---------------------------------------------------------------------------

variable {c : Console} {s s' : Station} {r : Run} {target : Status} {limit : Duration} {t : Nat}
  {polls : List Launch} {result : Except ServiceError Bool}

theorem Carried.first {x : Exchange} {launches : List Launch} (h : Carried x launches) :
    ∃ l, launches.head? = some l ∧ l.deed = deed x.request := by
  obtain ⟨l, hl, -⟩ := h.last
  cases launches with
  | nil => cases hl
  | cons l' launches => exact ⟨l', rfl, h.deeds l' List.mem_cons_self⟩

theorem PolledFrom.chain (h : PolledFrom target limit t polls result)
    (hdeeds : ∀ l ∈ polls, l.deed = .query) : polls.IsChain Leads := by
  induction h with
  | last _ => exact .singleton _
  | @more t l polls result hverdict _ ih =>
    refine List.isChain_cons.mpr ⟨fun l' hl' => ⟨?_, fun status hneeds => ?_⟩,
      ih fun l' hl' => hdeeds l' (.tail l hl')⟩
    · cases hfault : l.fault? with
      | none => rfl
      | some cause => simp [Launch.verdict?, hfault] at hverdict
    · rw [hdeeds l' (.tail l (List.mem_of_head? hl'))] at hneeds
      cases hneeds

variable {g : Gate} {q? : Option Request} {log : List Exchange} {carried : List (List Launch)}
  {checked : Except ServiceError Unit}

def vmms : Console := ⟨"powershell", "vmms", fun _ => ""⟩

end GuestControl.Shell
