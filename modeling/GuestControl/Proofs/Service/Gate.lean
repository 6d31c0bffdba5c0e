import GuestControl.Proofs.Operation.Dialogue
import GuestControl.Rehearsal

/-!
# What the readiness check asks for

Each request of the check follows from the exchange before it. A service on its way is
waited for; once it is seen stopped it is started, once it is seen paused it is resumed,
and then it is waited for until it runs. Whatever the replies are, the check ends with
the exchange that shows the service running, or with the first one that goes wrong, whose
failure it passes on.
-/

namespace GuestControl

open Service (Gate Status)

namespace Exchange

/-- What went wrong in an exchange with the service. A wait in vain counts as such. -/
def failure? : Exchange → Option ServiceError
  | ⟨.status, .error e⟩ | ⟨.start, .error e⟩ | ⟨.resume, .error e⟩ | ⟨.wait _ _, .error e⟩ =>
    some e
  | ⟨.wait target limit, .ok false⟩ => some (.timeout target limit)
  | _ => none

def shown? : Exchange → Option Status
  | ⟨.status, .ok status⟩ => some status
  | ⟨.wait target _, .ok true⟩ => some target
  | _ => none

end Exchange

/-- The status that the service is to be seen in right before it is steered by a request. -/
def Request.needs? : Request → Option Status
  | .start => some .stopped
  | .resume => some .paused
  | .status | .wait .. | .enter _ | .leave _ | .execute .. => none

def Request.steers (q : Request) : Bool := q.needs?.isSome

theorem Task.of_getLast?_trace {α σ : Type} {world : World σ} {t : Task α} {s : σ} {x : Exchange}
    (h : (t.trace world s).getLast? = some x) :
    ∃ q s', x = ⟨q, (world q s').1⟩ ∧ (t.run world s).2 = (world q s').2 := by
  induction t generalizing s with
  | done => cases h
  | ask q next ih =>
    cases hnext : next (world q s).1 with
    | done a =>
      simp only [trace, hnext, List.getLast?_singleton, Option.some.injEq] at h
      exact ⟨q, s, h.symm, by simp only [run, hnext]⟩
    | ask q' next' =>
      refine ih (world q s).1 ?_
      simpa only [trace, hnext, List.getLast?_cons_cons] using h

namespace Service.Gate

def towards (g : Gate) : Status → Option Request
  | .running => none
  | .startPending | .continuePending => some (.wait .running g.limit)
  | .stopPending => some (.wait .stopped g.limit)
  | .stopped => some .start
  | .pausePending => some (.wait .paused g.limit)
  | .paused => some .resume

def next? (g : Gate) (x : Exchange) : Option Request :=
  if x.request.steers then some (.wait .running g.limit) else x.shown?.bind g.towards

inductive Goes (g : Gate) : Option Request → List Exchange → Except ServiceError Unit → Prop
  | done : Goes g none [] (.ok ())
  | fail {x : Exchange} {e : ServiceError} : x.failure? = some e →
      Goes g (some x.request) [x] (.error e)
  | step {x : Exchange} {log : List Exchange} {result : Except ServiceError Unit} :
      x.failure? = none → Goes g (g.next? x) log result → Goes g (some x.request) (x :: log) result

variable {σ : Type} {g : Gate} {world : Task.World σ}

theorem goes_await {target : Status} {next : Check}
    (h : ∀ s, Goes g (g.towards target) (next.trace world s) (next.run world s).1) (s : σ) :
    Goes g (some (.wait target g.limit)) ((g.await target next).trace world s)
      ((g.await target next).run world s).1 := by
  simp only [await, Task.trace, Task.run]
  rcases (world (.wait target g.limit) s).1 with e | b
  · exact .fail (x := ⟨.wait target g.limit, .error e⟩) rfl
  · cases b with
    | false => exact .fail (x := ⟨.wait target g.limit, .ok false⟩) rfl
    | true => exact .step (x := ⟨.wait target g.limit, .ok true⟩) rfl (h _)

theorem goes_awaitRunning (s : σ) : Goes g (some (.wait .running g.limit))
    (g.awaitRunning.trace world s) (g.awaitRunning.run world s).1 :=
  goes_await (fun _ => .done) s

theorem goes_start (s : σ) :
    Goes g (some .start) (g.start.trace world s) (g.start.run world s).1 := by
  simp only [start, Task.trace, Task.run]
  rcases (world .start s).1 with e | u
  · exact .fail (x := ⟨.start, .error e⟩) rfl
  · exact .step (x := ⟨.start, .ok u⟩) rfl (goes_awaitRunning _)

theorem goes_resume (s : σ) :
    Goes g (some .resume) (g.resume.trace world s) (g.resume.run world s).1 := by
  simp only [resume, Task.trace, Task.run]
  rcases (world .resume s).1 with e | u
  · exact .fail (x := ⟨.resume, .error e⟩) rfl
  · exact .step (x := ⟨.resume, .ok u⟩) rfl (goes_awaitRunning _)

theorem goes_fromStatus (status : Status) (s : σ) :
    Goes g (g.towards status) ((g.fromStatus status).trace world s)
      ((g.fromStatus status).run world s).1 := by
  cases status with
  | running => exact .done
  | startPending | continuePending => exact goes_awaitRunning s
  | stopPending => exact goes_await goes_start s
  | stopped => exact goes_start s
  | pausePending => exact goes_await goes_resume s
  | paused => exact goes_resume s

theorem goes_drive (g : Gate) (world : Task.World σ) (s : σ) :
    Goes g (some .status) (g.drive.trace world s) (g.drive.run world s).1 := by
  simp only [drive, Task.trace, Task.run]
  rcases (world .status s).1 with e | status
  · exact .fail (x := ⟨.status, .error e⟩) rfl
  · exact .step (x := ⟨.status, .ok status⟩) rfl (goes_fromStatus status _)

-- ---------------------------------------------------------------------------
-- What follows for the log
-- ---------------------------------------------------------------------------

variable {q : Request} {q? : Option Request} {log before after : List Exchange} {x : Exchange}
  {result : Except ServiceError Unit} {e : ServiceError}

theorem towards_eq_some {status : Status} (h : g.towards status = some q) :
    q.needs? = some status ∨ ∃ target, q = .wait target g.limit := by
  cases status with
  | running => cases h
  | stopped | paused => exact .inl (Option.some.inj h ▸ rfl)
  | startPending | continuePending | stopPending | pausePending =>
    exact .inr ⟨_, (Option.some.inj h).symm⟩

theorem next?_eq_some (h : g.next? x = some q) :
    (∃ status, q.needs? = some status ∧ x.shown? = some status) ∨
      ∃ target, q = .wait target g.limit := by
  unfold next? at h
  split at h
  · exact .inr ⟨_, (Option.some.inj h).symm⟩
  · obtain ⟨status, hstatus, h⟩ := Option.bind_eq_some_iff.mp h
    exact (towards_eq_some h).imp_left fun hneeds => ⟨status, hneeds, hstatus⟩

theorem next?_eq_none (hservice : x.request.IsService) (hfail : x.failure? = none)
    (h : g.next? x = none) : x.shown? = some .running := by
  have hrunning {status : Status} (h : g.towards status = none) : status = .running := by
    cases status with
    | running => rfl
    | _ => cases h
  obtain ⟨q, reply⟩ := x
  cases q with
  | start | resume => cases h
  | enter | leave | execute => exact hservice.elim
  | status =>
    rcases reply with e | status
    · cases hfail
    · exact congrArg some (hrunning h)
  | wait target limit =>
    rcases reply with e | b
    · cases hfail
    · cases b with
      | false => cases hfail
      | true => exact congrArg some (hrunning h)

/-- What comes first is what was to be asked for; all else follows from what is before it. -/
theorem Goes.prev (h : Goes g q? log result) (hlog : log = before ++ x :: after) :
    before = [] ∧ q? = some x.request ∨
      ∃ before' y, before = before' ++ [y] ∧ y.failure? = none ∧ g.next? y = some x.request := by
  induction h generalizing before with
  | done => simp at hlog
  | fail _ =>
    cases before with
    | nil => cases hlog; exact .inl ⟨rfl, rfl⟩
    | cons y before => simp at hlog
  | @step y log result hfail _ ih =>
    cases before with
    | nil => cases hlog; exact .inl ⟨rfl, rfl⟩
    | cons z before =>
      obtain ⟨rfl, hrest⟩ := List.cons.inj hlog
      obtain ⟨rfl, hnext⟩ | ⟨before', z, rfl, hz⟩ := ih hrest
      · exact .inr ⟨[], y, rfl, hfail, hnext⟩
      · exact .inr ⟨y :: before', z, rfl, hz⟩

theorem Goes.failed (h : Goes g q? log result) (hlog : log = before ++ x :: after)
    (hx : x.failure? = some e) : after = [] ∧ result = .error e := by
  induction h generalizing before with
  | done => simp at hlog
  | @fail y e' hfail =>
    cases before with
    | nil =>
      cases hlog
      exact ⟨rfl, congrArg _ (Option.some.inj (hfail.symm.trans hx))⟩
    | cons z before => simp at hlog
  | step hfail _ ih =>
    cases before with
    | nil => cases hlog; cases hfail.symm.trans hx
    | cons z before => exact ih (List.cons.inj hlog).2

theorem Goes.last (h : Goes g q? log result) (hq : q? ≠ none) :
    ∃ x, log.getLast? = some x ∧
      (result = .ok () ∧ x.failure? = none ∧ g.next? x = none ∨
        ∃ e, result = .error e ∧ x.failure? = some e) := by
  induction h with
  | done => exact absurd rfl hq
  | @fail x e hfail => exact ⟨x, rfl, .inr ⟨e, rfl, hfail⟩⟩
  | @step x log result hfail hrest ih =>
    cases hnext : g.next? x with
    | none =>
      rw [hnext] at hrest
      cases hrest
      exact ⟨x, rfl, .inl ⟨rfl, hfail, hnext⟩⟩
    | some q =>
      obtain ⟨y, hy, hresult⟩ := ih (by simp [hnext])
      exact ⟨y, by simp [List.getLast?_cons, hy], hresult⟩

/-- How often the service may yet be steered. -/
def allowance : Option Request → Nat
  | none | some (.wait .running _) => 0
  | some _ => 1

theorem allowance_le_one (q? : Option Request) : allowance q? ≤ 1 := by
  unfold allowance
  split
  · exact Nat.zero_le 1
  · exact Nat.zero_le 1
  · exact Nat.le_refl 1

theorem allowance_next? (hfail : x.failure? = none) :
    (if x.request.steers then 1 else 0) + allowance (g.next? x) ≤ allowance (some x.request) := by
  obtain ⟨q, reply⟩ := x
  cases q with
  | start | resume => simp [Request.steers, Request.needs?, next?, allowance]
  | enter | leave | execute | status =>
    exact Nat.le_trans (Nat.le_of_eq (Nat.zero_add _)) (allowance_le_one _)
  | wait target limit =>
    cases target with
    | running =>
      -- The service is seen running, and nothing more is asked for.
      rcases reply with e | b
      · cases hfail
      · cases b with
        | false => cases hfail
        | true => simp [Request.steers, Request.needs?, next?, Exchange.shown?, towards, allowance]
    | _ => exact Nat.le_trans (Nat.le_of_eq (Nat.zero_add _)) (allowance_le_one _)

theorem Goes.countP_steers (h : Goes g q? log result) :
    log.countP (·.request.steers) ≤ allowance q? := by
  induction h with
  | done => exact Nat.le_refl _
  | @fail x e _ =>
    obtain ⟨q, reply⟩ := x
    cases q with
    | wait | status | start | resume | enter | leave | execute =>
      simp [Request.steers, Request.needs?, allowance]
  | @step x log result hfail _ ih =>
    rw [List.countP_cons, Nat.add_comm]
    exact Nat.le_trans (Nat.add_le_add_left ih _) (allowance_next? hfail)

-- ---------------------------------------------------------------------------
-- The law of the gate
-- ---------------------------------------------------------------------------

def ending (g : Gate) : Except ServiceError Unit → Ending Unit
  | .ok () => .value ()
  | .error cause => .error (.serviceUnavailable g.service cause)

theorem trace_ensureRunning (g : Gate) (world : Task.World σ) (s : σ) :
    Task.trace world g.ensureRunning s = g.drive.trace world s := by
  refine (Task.trace_bind world g.drive _ s).trans ?_
  rcases (g.drive.run world s).1 with e | u
  · exact List.append_nil _
  · exact List.append_nil _

theorem run_ensureRunning (g : Gate) (world : Task.World σ) (s : σ) :
    Task.run world g.ensureRunning s =
      (g.ending (g.drive.run world s).1, (g.drive.run world s).2) := by
  refine (Task.run_bind world g.drive _ s).trans ?_
  rcases (g.drive.run world s).1 with e | u
  · rfl
  · rfl

structure Checked (g : Gate) (log : List Exchange) (ending : Ending Unit) : Prop where
  service : ∀ x ∈ log, x.request.IsService
  passed_iff : ending = .value () ↔
    (∀ x ∈ log, x.failure? = none) ∧ ∃ x, log.getLast? = some x ∧ x.shown? = some .running
  /-- The service is started only where it was just seen stopped, and resumed only where it
  was just seen paused. -/
  seen : ∀ {before x after status}, log = before ++ x :: after → x.request.needs? = some status →
    ∃ before' y, before = before' ++ [y] ∧ y.shown? = some status
  once : log.countP (·.request.steers) ≤ 1
  limited : ∀ {x target limit}, x ∈ log → x.request = .wait target limit → limit = g.limit
  /-- What goes wrong is the end and is told. -/
  fails : ∀ {before x after cause}, log = before ++ x :: after → x.failure? = some cause →
    after = [] ∧ ending = .error (.serviceUnavailable g.service cause)
  failed : ending ≠ .value () → ∃ x cause, log.getLast? = some x ∧ x.failure? = some cause ∧
    ending = .error (.serviceUnavailable g.service cause)

/-- A check begins with the status; what it does to the service follows what it saw. -/
theorem Goes.follows (h : Goes g (some .status) log result) (hlog : log = before ++ x :: after) :
    x.request = .status ∨ (∃ target, x.request = .wait target g.limit) ∨
      ∃ before' y status, before = before' ++ [y] ∧ x.request.needs? = some status ∧
        y.shown? = some status := by
  obtain ⟨-, hfirst⟩ | ⟨before', y, rfl, -, hnext⟩ := h.prev hlog
  · exact .inl (Option.some.inj hfirst).symm
  · obtain ⟨status, hneeds, hshown⟩ | hwait := next?_eq_some hnext
    · exact .inr (.inr ⟨before', y, status, rfl, hneeds, hshown⟩)
    · exact .inr (.inl hwait)

theorem Goes.passed_iff (h : Goes g (some .status) log result)
    (hservice : ∀ x ∈ log, x.request.IsService) : result = .ok () ↔
      (∀ x ∈ log, x.failure? = none) ∧ ∃ x, log.getLast? = some x ∧ x.shown? = some .running := by
  obtain ⟨x, hlast, hx⟩ := h.last nofun
  have hmem := List.mem_of_getLast? hlast
  constructor
  · rintro rfl
    refine ⟨fun y hy => ?_, x, hlast, ?_⟩
    · cases hfail : y.failure? with
      | none => rfl
      | some e =>
        obtain ⟨before, after, hlog⟩ := List.append_of_mem hy
        obtain ⟨-, hresult⟩ := h.failed hlog hfail
        cases hresult
    · obtain ⟨-, hfail, hnext⟩ | ⟨e, hresult, -⟩ := hx
      · exact next?_eq_none (hservice x hmem) hfail hnext
      · cases hresult
  · rintro ⟨hfails, -⟩
    obtain ⟨hresult, -⟩ | ⟨e, -, hfail⟩ := hx
    · exact hresult
    · cases (hfails x hmem).symm.trans hfail

theorem ending_eq_value : g.ending result = .value () ↔ result = .ok () := by
  rcases result with e | u
  · simp [ending]
  · simp [ending]

theorem Goes.checked (h : Goes g (some .status) log result)
    (hservice : ∀ x ∈ log, x.request.IsService) : g.Checked log (g.ending result) where
  service := hservice
  passed_iff := ending_eq_value.trans (h.passed_iff hservice)
  seen hlog hx := by
    obtain hq | ⟨target, hq⟩ | ⟨before', y, status, hbefore, hneeds, hy⟩ := h.follows hlog
    · rw [hq] at hx; cases hx
    · rw [hq] at hx; cases hx
    · exact ⟨before', y, hbefore, hy.trans (hneeds.symm.trans hx)⟩
  once := h.countP_steers
  limited hmem hx := by
    obtain ⟨before, after, hlog⟩ := List.append_of_mem hmem
    obtain hq | ⟨target, hq⟩ | ⟨-, -, status, -, hneeds, -⟩ := h.follows hlog
    · cases hx.symm.trans hq
    · cases hx.symm.trans hq; rfl
    · rw [hx] at hneeds; cases hneeds
  fails hlog hx := by
    obtain ⟨hafter, rfl⟩ := h.failed hlog hx
    exact ⟨hafter, rfl⟩
  failed hending := by
    obtain ⟨x, hx, ⟨rfl, -⟩ | ⟨cause, rfl, hcause⟩⟩ := h.last nofun
    · exact absurd rfl hending
    · exact ⟨x, cause, hx, hcause, rfl⟩

def Truthful (world : Task.World σ) (observe : σ → Status) : Prop :=
  ∀ q s status, (Exchange.mk q (world q s).1).shown? = some status →
    observe (world q s).2 = status

/-- Whatever the replies are, the check keeps the law; if they are true, it passes only
where the service runs. -/
theorem ensureRunning_checked (g : Gate) (world : Task.World σ) (s : σ) :
    g.Checked (Task.trace world g.ensureRunning s) (Task.run world g.ensureRunning s).1 ∧
    ∀ observe : σ → Status, Truthful world observe →
      (Task.run world g.ensureRunning s).1 = .value () →
      observe (Task.run world g.ensureRunning s).2 = .running := by
  have hgoes := goes_drive g world s
  have hchecked := hgoes.checked fun x hx => only_drive.of_mem_trace hx
  rw [trace_ensureRunning, run_ensureRunning]
  refine ⟨hchecked, fun observe htrue hpassed => ?_⟩
  obtain ⟨-, x, hlast, hx⟩ := hchecked.passed_iff.mp hpassed
  obtain ⟨q, s', rfl, hstate⟩ := Task.of_getLast?_trace hlast
  rw [hstate]
  exact htrue q s' .running hx

/-- A service that is soon where it is waited for. -/
def obliging : Task.World Status
  | .status, status => (.ok status, status)
  | .start, _ => (.ok (), .startPending)
  | .resume, _ => (.ok (), .continuePending)
  | .wait target _, _ => (.ok true, target)
  | .enter _, status | .leave _, status => ((), status)
  | .execute _ _, status => (.finished {}, status)

theorem truthful_obliging : Truthful obliging id := by
  intro q s status h
  cases q with
  | status | wait => exact Option.some.inj h
  | _ => cases h

/-- A service on its way to a pause is seen running in the end; where the last wait is in
vain, this is told. -/
theorem ensureRunning_checked_pausing :
    (Task.run obliging (ensureRunning ⟨"vmms", .ofSeconds 30⟩) .pausePending).2 = .running ∧
    (Task.run Rehearsal.world (ensureRunning ⟨"vmms", .ofSeconds 30⟩)
      { statuses := [.ok .pausePending], waits := [.ok true, .ok false] }).1 =
        .error (.serviceUnavailable "vmms" (.timeout .running (.ofSeconds 30))) := by
  refine ⟨(ensureRunning_checked _ obliging .pausePending).2 id truthful_obliging rfl, ?_⟩
  have hlog : Task.trace Rehearsal.world (ensureRunning ⟨"vmms", .ofSeconds 30⟩)
      { statuses := [.ok .pausePending], waits := [.ok true, .ok false] } =
        [⟨.status, .ok .pausePending⟩, ⟨.wait .paused (.ofSeconds 30), .ok true⟩,
          ⟨.resume, .ok ()⟩] ++ [⟨.wait .running (.ofSeconds 30), .ok false⟩] := rfl
  exact ((ensureRunning_checked _ _ _).1.fails hlog rfl).2

end Service.Gate

end GuestControl
