import GuestControl.Operation
import GuestControl.Proofs.Wording
import GuestControl.Shell.Console
import Mathlib.Data.List.Forall2

/-!
# Operations fail closed

An operation whose first pipeline is checked goes on only if the process of that
pipeline ended well and printed an envelope without errors. Everything else ends it
at once: an error that a command reported, however empty its text and its code, is
told to the caller, and so is a process that could not be launched, did not end well
or printed something else.
-/

namespace GuestControl

namespace Shell

-- ---------------------------------------------------------------------------
-- Processes
-- ---------------------------------------------------------------------------

theorem Station.run_cons {i : Invocation} {s : Station} {r : Run} {rest : List Run}
    (hfit : i.holdsNul = false) (hprogram : s.programs.contains i.program = true)
    (hruns : s.runs = r :: rest) :
    s.run i = (r, { s with log := s.log ++ [i], runs := rest }) := by
  simp only [Station.run, hfit, hprogram, hruns, Bool.false_eq_true, if_false, if_true]

theorem Console.status_of_run {c : Console} {s s' : Station} {e : Ended}
    {status : Service.Status} (hrun : s.run (c.invocation c.statusScript) = (.ended e, s'))
    (hsucceeded : e.succeeded = true) (hread : Service.Status.parse? e.printed = some status) :
    c.status s = (.ok status, s') := by
  have hreply : serviceReply (.ended e) = .ok e := if_pos hsucceeded
  have hstatus : Service.Status.read e.printed = .ok status := by
    simp only [Service.Status.read, hread]
  simp only [Console.status, query, hrun, hreply, bind, Except.bind, hstatus]
  rfl

/-- The text can be handed to a program. -/
def Fit (s : String) : Prop := s.toList.any (·.toNat == 0) = false

instance (s : String) : Decidable (Fit s) := inferInstanceAs (Decidable (_ = false))

theorem Fit.ofList {l : List Char} (h : l.any (·.toNat == 0) = false) :
    Fit (String.ofList l) := by
  rwa [Fit, String.toList_ofList]

theorem Fit.append {s t : String} (hs : Fit s) (ht : Fit t) : Fit (s ++ t) := by
  unfold Fit at hs ht ⊢
  rw [String.toList_append, List.any_append, hs, ht, Bool.or_false]

theorem holdsNul_wrap {c : Console} {body : String} (hprogram : Fit c.program)
    (hbody : Fit body) : (c.invocation (Pipeline.wrap body)).holdsNul = false := by
  have hbefore : Fit Pipeline.wrapBefore := .append (.ofList rfl) (.ofList rfl)
  have hafter : Fit Pipeline.wrapAfter := by
    unfold Pipeline.wrapAfter
    iterate 6 refine .append ?_ (.ofList rfl)
    exact .ofList rfl
  have hscript : Fit (Pipeline.wrap body) := (hbefore.append hbody).append hafter
  have hprofile : Fit "-NoProfile" := .ofList rfl
  have hinteractive : Fit "-NonInteractive" := .ofList rfl
  have hcommand : Fit "-Command" := .ofList rfl
  unfold Fit at hprogram hscript hprofile hinteractive hcommand
  simp only [Invocation.holdsNul, Console.invocation, List.any_cons, List.any_nil, hprogram,
    hscript, hprofile, hinteractive, hcommand, Bool.or_false]

-- ---------------------------------------------------------------------------
-- From a process to an outcome
-- ---------------------------------------------------------------------------

/-- The errors that an envelope holds, unless one of them is none. -/
def Envelope.commandErrors? (env : Envelope) : Option (List CommandError) :=
  (flatten env.errors).mapM CommandError.ofJson?

theorem Envelope.flatten_eq_nil {env : Envelope} (h : env.commandErrors? = some []) :
    flatten env.errors = [] := by
  unfold commandErrors? at h
  cases hitems : flatten env.errors with
  | nil => rfl
  | cons item rest =>
    rw [hitems, List.mapM_cons] at h
    cases hitem : CommandError.ofJson? item with
    | none => simp [hitem] at h
    | some e => cases hrest : rest.mapM CommandError.ofJson? <;> simp [hitem, hrest] at h

/-- A process was launched, ended well and printed the envelope. -/
def Run.Printed (r : Run) (env : Envelope) : Prop :=
  ∃ e : Ended, r = .ended e ∧ e.status = some 0 ∧
    Envelope.decoder.runString (Text.trim (Text.Utf8.lenient e.output)) = .ok env

variable {env : Envelope} {errors : List CommandError} {r : Run} {o : Outcome} {c : Console}

theorem CommandError.text_ne_empty (e : CommandError) : e.text ≠ "" := by
  simp [text]

/-- Even errors without a text are told as some text. -/
theorem intercalate_text_ne_empty (h : errors ≠ []) :
    "\n".intercalate (errors.map (·.text)) ≠ "" := by
  match errors with
  | [] => exact absurd rfl h
  | [e] => simpa using e.text_ne_empty
  | e :: e' :: rest =>
    simp [String.intercalate_cons_cons]

def Envelope.outcome (env : Envelope) (errors : List CommandError) : Outcome :=
  { records := (flatten env.records).filterMap recordOf?
    errorText := "\n".intercalate (errors.map (·.text))
    errorCode := (errors.head?.map (·.code)).getD 0 }

theorem Envelope.outcome?_eq (env : Envelope) :
    env.outcome? = env.commandErrors?.map env.outcome := by
  unfold outcome? commandErrors?
  cases (flatten env.errors).mapM CommandError.ofJson? <;> rfl

theorem decodeOutput_ok {wording : String → String} {printed : String} :
    decodeOutput wording printed = .ok o ↔ ∃ env errors,
      Envelope.decoder.runString (Text.trim printed) = .ok env ∧
        env.commandErrors? = some errors ∧ env.outcome errors = o := by
  unfold decodeOutput
  cases Envelope.decoder.runString (Text.trim printed) with
  | error fault => simp
  | ok env =>
    simp only [Envelope.outcome?_eq]
    cases herrors : env.commandErrors? with
    | none => simp [herrors]
    | some errors => simp [herrors]

theorem succeeded_iff {e : Ended} : e.succeeded = true ↔ e.status = some 0 := by
  simp [Ended.succeeded]

theorem outcome_ok : c.outcome r = .ok o ↔ ∃ env errors,
    r.Printed env ∧ env.commandErrors? = some errors ∧ env.outcome errors = o := by
  cases r with
  | refused reason => simp [Console.outcome, Run.Printed]
  | ended e =>
    by_cases hs : e.status = some 0
    · simp [Console.outcome, Run.Printed, hs, succeeded_iff, decodeOutput_ok]
    · simp [Console.outcome, Run.Printed, hs, succeeded_iff]

theorem forall₂_worded {lines : List String} :
    List.Forall₂ CommandError.Worded errors lines ↔ lines = errors.map (·.text) := by
  induction errors generalizing lines with
  | nil => simp
  | cons e errors ih => simp [List.forall₂_cons_left_iff, CommandError.worded_iff, ih]

/-- What is told of a process that printed no envelope. -/
inductive Console.Tells (c : Console) : Run → String → Prop
  | launch : Tells c (.refused reason)
      ("failed to launch shell '" ++ c.program ++ "': " ++ reason)
  | exit {e : Ended} {status : Int} : e.status = some status → status ≠ 0 → Tells c (.ended e)
      ("shell exited with status " ++ toString status ++ ": " ++
        Text.trim (Text.Utf8.lenient e.complaints))
  | signal {e : Ended} : e.status = none → Tells c (.ended e)
      ("shell exited with status -1: " ++ Text.trim (Text.Utf8.lenient e.complaints))
  | decode {e : Ended} : e.status = some 0 → Tells c (.ended e)
      ("shell output could not be decoded: " ++
        c.wording (Text.trim (Text.Utf8.lenient e.output)))

theorem decodeOutput_error {wording : String → String} {printed : String} {cause : ExecutorError}
    (h : decodeOutput wording printed = .error cause) :
    cause = .undecodable (wording (Text.trim printed)) := by
  unfold decodeOutput at h
  cases hrun : Envelope.decoder.runString (Text.trim printed) with
  | error fault => simpa [hrun, eq_comm] using h
  | ok env =>
    cases houtcome : env.outcome? with
    | none => simpa [hrun, houtcome, eq_comm] using h
    | some o => simp [hrun, houtcome] at h

theorem Console.tells_exit {e : Ended} (h : e.status ≠ some 0) :
    c.Tells (.ended e) ("shell exited with status " ++
      Text.Numeral.signed (e.status.getD noStatus) ++ ": " ++ e.complaint) := by
  cases hstatus : e.status with
  | none =>
    have hminus : "shell exited with status " ++ Text.Numeral.signed noStatus ++ ": " =
        "shell exited with status -1: " := by decide +kernel
    rw [Option.getD_none, hminus]
    exact .signal hstatus
  | some status =>
    rw [Option.getD_some, Text.Numeral.signed_eq_toString]
    exact .exit hstatus fun hzero => h (hzero ▸ hstatus)

theorem Console.tells_of_error {cause : ExecutorError} (h : c.outcome r = .error cause) :
    c.Tells r cause.message := by
  cases r with
  | refused reason =>
    obtain rfl := Except.error.inj h
    exact .launch
  | ended e =>
    by_cases hzero : e.status = some 0
    · have hdecode : c.outcome (.ended e) = decodeOutput c.wording (Text.Utf8.lenient e.output) :=
        if_pos (succeeded_iff.mpr hzero)
      obtain rfl : cause = .undecodable (c.wording e.printed) :=
        decodeOutput_error (hdecode.symm.trans h)
      exact .decode hzero
    · have hexit : c.outcome (.ended e) = .error (.exit (e.status.getD noStatus) e.complaint) :=
        if_neg fun hsucceeded => hzero (succeeded_iff.mp hsucceeded)
      obtain rfl := Except.error.inj (hexit.symm.trans h)
      exact tells_exit hzero

theorem hasError_outcome : (env.outcome errors).hasError = true ↔ errors ≠ [] := by
  simp only [Outcome.hasError, Envelope.outcome, Bool.not_eq_true', String.isEmpty_eq_false_iff]
  refine ⟨?_, intercalate_text_ne_empty⟩
  rintro h rfl
  exact h rfl

end Shell

-- ---------------------------------------------------------------------------
-- Calls that fail
-- ---------------------------------------------------------------------------

open Shell (Console Station)
open Service (Gate)

def Execution.ofResult : Except ExecutorError Outcome → Execution
  | .ok o => .finished o
  | .error e => .failed e

namespace Task

variable {α β : Type} {c : Console} {t : Task (Ending α)} {s s₁ s' : Station} {e : Error}
  {id : Guid}

/-- From a station on, a task ends in an error and leaves the station so. -/
def Fails (c : Console) (t : Task (Ending α)) (s : Station) (e : Error) (s' : Station) : Prop :=
  ∀ turnstile, ∃ turnstile', t.run c.world ⟨s, turnstile⟩ = (.error e, ⟨s', turnstile'⟩)

theorem Fails.done : Fails c (.done (.error e) : Task (Ending α)) s e s :=
  fun turnstile => ⟨turnstile, rfl⟩

theorem Fails.enter (h : Fails c t s e s') : Fails c (.ask (.enter id) fun _ => t) s e s' :=
  fun turnstile => h (turnstile.arrive 0 id)

theorem Fails.leave (h : Fails c t s e s') : Fails c (.ask (.leave id) fun _ => t) s e s' :=
  fun turnstile => h (turnstile.depart 0)

theorem Fails.ask {q : Request} {next : q.Reply → Task (Ending α)} {reply : q.Reply}
    (hworld : ∀ turnstile, c.world q ⟨s, turnstile⟩ = (reply, ⟨s₁, turnstile⟩))
    (h : Fails c (next reply) s₁ e s') : Fails c (.ask q next) s e s' := by
  intro turnstile
  obtain ⟨turnstile', hrun⟩ := h turnstile
  refine ⟨turnstile', ?_⟩
  rw [run, hworld]
  exact hrun

theorem Fails.status {next : Request.status.Reply → Task (Ending α)}
    (hstatus : c.status s = (.ok .running, s₁)) (h : Fails c (next (.ok .running)) s₁ e s') :
    Fails c (.ask .status next) s e s' := by
  refine .ask (fun turnstile => ?_) h
  simp only [Console.world, Console.onStation, hstatus]

theorem Fails.execute {next : Execution → Task (Ending α)} {p : Pipeline} {mode : Mode}
    {result : Except ExecutorError Outcome} (hexec : c.execute p mode s = (result, s₁))
    (h : Fails c (next (.ofResult result)) s₁ e s') :
    Fails c (.ask (.execute p mode) next) s e s' := by
  refine .ask (fun turnstile => ?_) h
  cases result <;> simp only [Console.world, Console.onStation, hexec, Execution.ofResult]

theorem Fails.bind {f : Ending α → Task (Ending β)} (ht : Fails c t s e s')
    (hf : Fails c (f (.error e)) s' e s') : Fails c (t.bind f) s e s' := by
  intro turnstile
  obtain ⟨turnstile₁, hrun⟩ := ht turnstile
  obtain ⟨turnstile', hrest⟩ := hf turnstile₁
  refine ⟨turnstile', ?_⟩
  rw [run_bind, hrun]
  exact hrest

end Task

namespace Manager

open GuestControl.Task (Fails)

variable {α β : Type} {c : Console} {call : Call α} {s s₁ s' : Station} {e : Error}
  {g : Gate} {id : Guid}

theorem fails_bind (h : Fails c call s e s') (f : α → Call β) :
    Fails c (call >>= f : Call β) s e s' := h.bind .done

theorem fails_map (h : Fails c call s e s') (f : α → β) : Fails c (call.map f) s e s' :=
  h.bind .done

theorem fails_ensureRunning {f : Unit → Call α} (hstatus : c.status s = (.ok .running, s₁))
    (h : Fails c (f ()) s₁ e s') : Fails c (g.ensureRunning >>= f : Call α) s e s' :=
  .status hstatus h

theorem fails_onMachine (hstatus : c.status s = (.ok .running, s₁)) (h : Fails c call s₁ e s') :
    Fails c (onMachine g id call) s e s' :=
  .status hstatus (.enter (h.bind (.leave .done)))

structure Checked where
  operation : String
  resource : Option Guid
  pipeline : Pipeline
  mode : Mode

namespace Checked

def failure? (k : Checked) : Except ExecutorError Outcome → Option Error
  | .error cause => some (.failed k.operation k.resource cause.message unexpectedCode)
  | .ok o =>
    if o.hasError then some (.failed k.operation k.resource o.errorText o.errorCode) else none

theorem fails {k : Checked} (h : k.failure? (c.execute k.pipeline k.mode s).1 = some e) :
    Fails c (runChecked k.operation k.resource k.pipeline k.mode) s e
      (c.execute k.pipeline k.mode s).2 := by
  rcases hexec : c.execute k.pipeline k.mode s with ⟨result, s₁⟩
  rw [hexec] at h
  refine .execute hexec ?_
  cases result with
  | error cause =>
    obtain rfl := Option.some.inj h
    exact .done
  | ok o =>
    change Fails c (if o.hasError then .done (.error _) else .done (.value o)) _ _ _
    by_cases herror : o.hasError = true
    · obtain rfl := Option.some.inj ((if_pos herror).symm.trans h)
      rw [if_pos herror]
      exact .done
    · cases (if_neg herror).symm.trans h

theorem failure?_of_errors {k : Checked} {r : Shell.Run} {env : Shell.Envelope}
    {first : Shell.CommandError} {more : List Shell.CommandError}
    (hprinted : r.Printed env) (herrors : env.commandErrors? = some (first :: more)) :
    k.failure? (c.outcome r) =
      some (.failed k.operation k.resource ("\n".intercalate ((first :: more).map (·.text)))
        first.code) := by
  have hout : c.outcome r = .ok (env.outcome (first :: more)) :=
    Shell.outcome_ok.mpr ⟨env, _, hprinted, herrors, rfl⟩
  rw [hout]
  exact if_pos (Shell.hasError_outcome.mpr (List.cons_ne_nil first more))

theorem printed_of_failure?_eq_none {k : Checked} {r : Shell.Run}
    (h : k.failure? (c.outcome r) = none) :
    ∃ env, r.Printed env ∧ env.commandErrors? = some [] := by
  cases hout : c.outcome r with
  | error cause =>
    rw [hout] at h
    cases h
  | ok o =>
    obtain ⟨env, errors, hprinted, herrors, -⟩ := Shell.outcome_ok.mp hout
    cases errors with
    | nil => exact ⟨env, hprinted, herrors⟩
    | cons first more => cases h.symm.trans (failure?_of_errors hprinted herrors)

end Checked

end Manager

open Manager

def Manager.Checked.change (operation : String) (id : Guid) (command : List Pipeline.Step) :
    Checked :=
  ⟨operation, some id, .build (lookUpMachine id ++ command), .piped⟩

def Operation.firstChecked? : Operation → Option Checked
  | .listMachines | .listCheckpoints _ | .diskSize _ => none
  | .getMachine id => some ⟨"get virtual machine", some id, machinePipeline id, .separate⟩
  | .getHost => some ⟨"get host", none, .build [.command Cmdlet.getHost], .separate⟩
  | .start id => some <| .change "start virtual machine" id
      [.command Cmdlet.startMachine, switch Parameter.passThru true]
  | .stop id kind => some <| .change "stop virtual machine" id
      ([.command Cmdlet.stopMachine, switch Parameter.passThru true] ++ stopSwitch kind)
  | .pause id => some <| .change "pause virtual machine" id
      [.command Cmdlet.suspendMachine, switch Parameter.passThru true]
  | .resume id => some <| .change "resume virtual machine" id
      [.command Cmdlet.resumeMachine, switch Parameter.passThru true]
  | .restart id => some <| .change "restart virtual machine" id
      [.command Cmdlet.restartMachine, switch Parameter.force true,
        switch Parameter.passThru true]
  | .remove id => some ⟨"remove virtual machine", some id, removePipeline id, .piped⟩
  | .create parameters =>
    some ⟨"create virtual machine", none, createPipeline parameters, .separate⟩
  | .takeCheckpoint id => some <| .change "create checkpoint" id
      [.command Cmdlet.takeCheckpoint, .argument Parameter.passThru (.bool true)]
  | .applyCheckpoint id checkpoint =>
    some ⟨"apply checkpoint", some id, checkpointPipeline Cmdlet.restoreCheckpoint checkpoint,
      .piped⟩
  | .removeCheckpoint id checkpoint =>
    some ⟨"remove checkpoint", some id, checkpointPipeline Cmdlet.removeCheckpoint checkpoint,
      .piped⟩

theorem Operation.fails {op : Operation} {k : Checked} {c : Console} {s s₁ : Station} {e : Error}
    {g : Gate} (hop : op.firstChecked? = some k) (hstatus : c.status s = (.ok .running, s₁))
    (hfailure : k.failure? (c.execute k.pipeline k.mode s₁).1 = some e) :
    Task.Fails c (op.call g) s e (c.execute k.pipeline k.mode s₁).2 := by
  have hfirst := Checked.fails hfailure
  cases op with
  | listMachines | listCheckpoints _ | diskSize _ => cases hop
  -- no slot is held around these two, so there is none to give back
  | getHost | create _ =>
    cases hop
    exact fails_map (fails_ensureRunning hstatus (fails_bind hfirst _)) _
  | getMachine _ | start _ | stop _ _ | pause _ | resume _ | restart _ | remove _
  | takeCheckpoint _ | applyCheckpoint _ _ | removeCheckpoint _ _ =>
    cases hop
    exact fails_map (fails_onMachine hstatus (fails_bind hfirst _)) _

/-- With the service running, the process of the first pipeline decides. A value takes
an envelope without errors; any errors are told, line by line, under the code of the
first; all else is told as an unexpected failure. No other process is run after that. -/
theorem Operation.fail_closed {op : Operation} {k : Checked} {c : Console} {site : Console.Site}
    {g : Gate} {s₁ s₂ : Station} {r : Shell.Run} (hop : op.firstChecked? = some k)
    (hstatus : c.status site.station = (.ok .running, s₁))
    (hrun : s₁.run (c.invocation (Pipeline.wrap (k.pipeline.script k.mode))) = (r, s₂)) :
    (∀ a, (Task.run c.world (op.call g) site).1 = .value a →
      ∃ env, r.Printed env ∧ Shell.Envelope.flatten env.errors = []) ∧
    (∀ env first more, r.Printed env → env.commandErrors? = some (first :: more) →
      ∃ lines, List.Forall₂ Shell.CommandError.Worded (first :: more) lines ∧
      (Task.run c.world (op.call g) site).1 = .error (.operationFailed k.operation k.resource
        ("\n".intercalate lines) (if first.code = 0 then unexpectedCode else first.code)) ∧
      (Task.run c.world (op.call g) site).2.station = s₂) ∧
    ((∀ env, r.Printed env → env.commandErrors? = none) →
      ∃ text, c.Tells r text ∧
        (Task.run c.world (op.call g) site).1 =
          .error (.operationFailed k.operation k.resource text unexpectedCode) ∧
        (Task.run c.world (op.call g) site).2.station = s₂) := by
  have hexec : c.execute k.pipeline k.mode s₁ = (c.outcome r, s₂) := by
    simp only [Console.execute, hrun]
  have hfails {e : Error} (hfailure : k.failure? (c.outcome r) = some e) :
      (Task.run c.world (op.call g) site).1 = .error e ∧
        (Task.run c.world (op.call g) site).2.station = s₂ := by
    have := Operation.fails (g := g) hop hstatus (e := e) (by rw [hexec, hfailure])
    obtain ⟨turnstile', hcall⟩ := this site.turnstile
    rw [hcall, hexec]
    exact ⟨rfl, rfl⟩
  refine ⟨?value, ?errors, ?other⟩
  case value =>
    intro a ha
    cases hfailure : k.failure? (c.outcome r) with
    | some e => cases ha.symm.trans (hfails hfailure).1
    | none =>
      obtain ⟨env, hprinted, herrors⟩ := Checked.printed_of_failure?_eq_none hfailure
      exact ⟨env, hprinted, Shell.Envelope.flatten_eq_nil herrors⟩
  case errors =>
    intro env first more hprinted herrors
    exact ⟨_, Shell.forall₂_worded.mpr rfl, hfails (Checked.failure?_of_errors hprinted herrors)⟩
  case other =>
    intro hnone
    cases hout : c.outcome r with
    | error cause => exact ⟨_, c.tells_of_error hout, hfails (congrArg k.failure? hout)⟩
    | ok o =>
      obtain ⟨env, errors, hprinted, herrors, rfl⟩ := Shell.outcome_ok.mp hout
      cases (hnone env hprinted).symm.trans herrors

-- Processes for a run on which the service is reported running.

def Shell.console : Console := ⟨"powershell", "vmms", fun _ => "no envelope"⟩

def Shell.running : Shell.Ended := { output := Text.Utf8.encode "Running" }

def Shell.stationOf (printed : Shell.Ended) : Station :=
  ⟨["powershell"], [.ended running, .ended printed], []⟩

def Shell.reporting (errors : String) : Shell.Ended :=
  { output := Text.Utf8.encode ("\x7b\"Errors\":" ++ errors ++ "\x7d") }

theorem Shell.exists_printed {e : Shell.Ended} {errors : List Shell.CommandError}
    (hzero : e.status = some 0)
    (h : (Shell.Envelope.decoder.runString e.printed).toOption.bind (·.commandErrors?) =
      some errors) :
    ∃ env, (Shell.Run.ended e).Printed env ∧ env.commandErrors? = some errors := by
  obtain ⟨env, henv, herrors⟩ := Option.bind_eq_some_iff.mp h
  refine ⟨env, ⟨e, rfl, hzero, ?_⟩, herrors⟩
  change Shell.Envelope.decoder.runString e.printed = .ok env
  cases hrun : Shell.Envelope.decoder.runString e.printed with
  | error fault =>
    rw [hrun] at henv
    cases henv
  | ok env' =>
    rw [hrun] at henv
    exact congrArg Except.ok (Option.some.inj henv)

/-- Not even an error without a text and with code zero passes for a success. A negative
code is told by its bits. -/
theorem Operation.fail_closed_codes :
    let ending (errors : String) := (Task.run Shell.console.world ((start .nil).call default)
      ⟨Shell.stationOf (Shell.reporting errors), .init 1⟩).1
    let failed (text : String) (code : Int32) : Ending Answer :=
      .error (.operationFailed "start virtual machine" (some .nil) text code)
    ending "\x7b\"HResult\":0\x7d" = failed " (0x0)" (-2147418113) ∧
      ending "\x7b\"HResult\":-2147024891\x7d" = failed " (0x80070005)" (-2147024891) ∧
      ending "[[\"busy\",170],\x7b\"Message\":\"denied\",\"HResult\":-2147024891\x7d,[]]" =
        failed "busy (0xAA)\ndenied (0x80070005)\n (0x0)" 170 := by
  intro ending failed
  let k : Checked := .change "start virtual machine" .nil
    [.command Cmdlet.startMachine, switch Parameter.passThru true]
  have hop : (start .nil).firstChecked? = some k := rfl
  have hends (reported : String) (first : Shell.CommandError) (more : List Shell.CommandError)
      {text : String} (hdecoded : (Shell.Envelope.decoder.runString
        (Shell.reporting reported).printed).toOption.bind (·.commandErrors?) =
          some (first :: more))
      (htext : "\n".intercalate ((first :: more).map (·.text)) = text) :
      ending reported = failed text (if first.code = 0 then unexpectedCode else first.code) := by
    have hstatus := Console.status_of_run (c := Shell.console)
      (Station.run_cons (s := Shell.stationOf (Shell.reporting reported)) (by decide +kernel)
        rfl rfl) (by decide) (by decide +kernel : _ = some .running)
    have hfit : (Shell.console.invocation
        (Pipeline.wrap (k.pipeline.script k.mode))).holdsNul = false :=
      Shell.holdsNul_wrap (.ofList rfl) (by decide +kernel)
    obtain ⟨env, hprinted, herrors⟩ := Shell.exists_printed rfl hdecoded
    obtain ⟨lines, hlines, hending, -⟩ := (@fail_closed _ _ _
      ⟨Shell.stationOf (Shell.reporting reported), .init 1⟩ default _ _ _ hop hstatus
      (Station.run_cons hfit rfl rfl)).2.1 env first more hprinted herrors
    rwa [Shell.forall₂_worded.mp hlines, htext] at hending
  exact ⟨hends _ {} [] (by decide +kernel) (by decide +kernel),
    hends _ ⟨"", -2147024891⟩ [] (by decide +kernel) (by decide +kernel),
    hends _ ⟨"busy", 170⟩ [⟨"denied", -2147024891⟩, {}] (by decide +kernel) (by decide +kernel)⟩

end GuestControl
