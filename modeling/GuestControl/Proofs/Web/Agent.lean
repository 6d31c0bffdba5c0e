import GuestControl.Proofs.Operation.Slots
import GuestControl.Proofs.Web.Data
import GuestControl.Proofs.Web.Dispatch

/-!
# What the agent does about a request

A handler reads the identifiers that the path names before it does anything else; then
it performs one operation, whose ending it reports.
-/

namespace GuestControl.Web

open Json (Doc)

variable {r : Request} {op : Operation}

-- ---------------------------------------------------------------------------
-- Replies
-- ---------------------------------------------------------------------------

/-- The reply has the status and the envelope; its body is left out where only the
head of it is asked for. -/
structure Says (r : Request) (reply : Reply) (status : Nat) (success : Bool)
    (data error : Doc) : Prop where
  status : reply.status = status
  type : reply.contentType = some "application/json"
  body : reply.body = if r.method = .head then "" else
    (Doc.fields [("success", .bool success), ("data", data), ("error", error)]).render

inductive Reports (op : Operation) : Ending Answer → Nat → Bool → Doc → Doc → Prop
  | value : Sent op a d → Reports op (.value a) 200 true d .null
  | unavailable : (Error.serviceUnavailable service cause).Worded text →
      Reports op (.error (.serviceUnavailable service cause)) 503 false .null (.text text)
  | notFound : (Error.notFound resource code).Worded text →
      Reports op (.error (.notFound resource code)) 404 false .null (.text text)
  | failed : (Error.operationFailed operation resource reason code).Worded text →
      Reports op (.error (.operationFailed operation resource reason code)) 502 false .null
        (.text text)
  | misread : (Error.materialization field expected found).Worded text →
      Reports op (.error (.materialization field expected found)) 500 false .null (.text text)
  | crashed : Reports op (.crashed report) 500 false .null (.text report)

theorem finish_success (r : Request) (d : Doc) :
    Says r (finish r (.success d)) 200 true d .null := by
  unfold finish
  split
  · exact ⟨rfl, rfl, (if_pos ‹_›).symm⟩
  · exact ⟨rfl, rfl, (if_neg ‹_›).symm⟩

theorem finish_failure (r : Request) (status : Nat) (message : String) :
    Says r (finish r (.failure status message)) status false .null (.text message) := by
  unfold finish
  split
  · exact ⟨rfl, rfl, (if_pos ‹_›).symm⟩
  · exact ⟨rfl, rfl, (if_neg ‹_›).symm⟩

theorem reports_ofEnding (r : Request) (op : Operation) (ending : Ending Answer)
    (hvalue : ∀ a, ending = .value a → Sent op a (data op a)) :
    ∃ status success d error, Reports op ending status success d error ∧
      Says r (finish r (.ofEnding op ending)) status success d error := by
  cases ending with
  | value a => exact ⟨_, _, _, _, .value (hvalue a rfl), finish_success r (data op a)⟩
  | error e =>
    have hworded := e.worded_message
    cases e with
    | serviceUnavailable => exact ⟨_, _, _, _, .unavailable hworded, finish_failure ..⟩
    | notFound => exact ⟨_, _, _, _, .notFound hworded, finish_failure ..⟩
    | operationFailed => exact ⟨_, _, _, _, .failed hworded, finish_failure ..⟩
    | materialization => exact ⟨_, _, _, _, .misread hworded, finish_failure ..⟩
  | crashed report => exact ⟨_, _, _, _, .crashed, finish_failure ..⟩

theorem Reports.status_iff {ending : Ending Answer} {status : Nat} {success : Bool}
    {d error : Doc} (h : Reports op ending status success d error) :
    status = 200 ↔ ∃ a, ending = .value a := by
  cases h with
  | _ => simp

-- ---------------------------------------------------------------------------
-- Handling
-- ---------------------------------------------------------------------------

section
variable {σ : Type}

theorem handle_reply (world : Task.World σ) (g : Service.Gate) (s : σ) {reply : Reply}
    (hplan : plan r = .reply reply) :
    Task.trace world (handle g r) s = [] ∧ Task.run world (handle g r) s = (finish r reply, s) := by
  rw [handle, hplan]
  exact ⟨rfl, rfl⟩

theorem handle_perform (world : Task.World σ) (g : Service.Gate) (s : σ)
    (hplan : plan r = .perform op) :
    Task.trace world (handle g r) s = Task.trace world (op.call g) s ∧
    Task.run world (handle g r) s = (finish r (.ofEnding op (Task.run world (op.call g) s).1),
      (Task.run world (op.call g) s).2) := by
  rw [handle, hplan]
  refine ⟨(Task.trace_bind world (op.call g) _ s).trans (List.append_nil _), ?_⟩
  exact Task.run_bind world (op.call g) _ s

theorem held_call (op : Operation) (g : Service.Gate) (world : Task.World σ) (s : σ) :
    Exchange.held (Task.trace world (op.call g) s) = [] := by
  obtain ⟨slot?, before, under, htrace, hbefore, hunder⟩ := op.trace_underSlot g world s
  rw [htrace]
  cases slot? with
  | none => exact Turnstile.held_slotless [] fun x hx =>
      (List.mem_append.mp hx).elim (hbefore x) (hunder x)
  | some id => exact Turnstile.held_givenBack id hbefore hunder

/-- A request that the table sends to a handler is refused without any effect if one of
the texts that its path has for identifiers is none. Else the one operation of the
handler is performed, and the reply reports how it ended; it is a success exactly if
the operation had a value. Whatever happens, no slot is kept. -/
theorem dispatched_faithful {r : Request} {h : Handler} (hd : Dispatched r h)
    (world : Task.World σ) (g : Service.Gate) (s : σ) :
    ((∃ raw ∈ h.ids, Guid.parse? raw = none) →
      Task.trace world (handle g r) s = [] ∧ (Task.run world (handle g r) s).2 = s ∧
      ∃ raw ∈ h.ids, Guid.parse? raw = none ∧
        Says r (Task.run world (handle g r) s).1 400 false .null
          (.text ("Invalid id '" ++ raw ++ "'"))) ∧
    ((∀ raw ∈ h.ids, Guid.parse? raw ≠ none) →
      ∃ op status success data error, h.operation? = some op ∧
        Task.trace world (handle g r) s = Task.trace world (op.call g) s ∧
        (Task.run world (handle g r) s).2 = (Task.run world (op.call g) s).2 ∧
        Reports op (Task.run world (op.call g) s).1 status success data error ∧
        Says r (Task.run world (handle g r) s).1 status success data error ∧
        (status = 200 ↔ ∃ a, (Task.run world (op.call g) s).1 = .value a) ∧
        Exchange.held (Task.trace world (handle g r) s) = []) := by
  constructor
  · intro hids
    obtain ⟨raw, hmem, hnone, hparse⟩ := Handler.parse_of_invalid hids
    obtain ⟨htrace, hrun⟩ : Task.trace world (handle g r) s = [] ∧ Task.run world (handle g r) s =
        (finish r (.invalidId raw), s) :=
      handle_reply world g s (by rw [hd.plan_eq, hparse, Plan.ofPart])
    rw [hrun]
    exact ⟨htrace, rfl, raw, hmem, hnone, finish_failure ..⟩
  · intro hids
    obtain ⟨op, hop⟩ := Handler.operation?_of_valid hids
    obtain ⟨htrace, hrun⟩ := handle_perform world g s (plan_perform_iff.mpr ⟨h, hd, hop⟩)
    obtain ⟨status, success, data, error, hreports, hreply⟩ :=
      reports_ofEnding r op (Task.run world (op.call g) s).1 fun _ => sent_data
    refine ⟨op, status, success, data, error, hop, htrace, ?_, hreports, ?_,
      hreports.status_iff, ?_⟩
    · rw [hrun]
    · rw [hrun]
      exact hreply
    · rw [htrace]
      exact held_call op g world s

/-- A second identifier that is none is found before anything is done; a stop that
crashes is told as a failure and keeps no slot. -/
theorem dispatched_faithful_second_id :
    let id := "00000000000000000000000000000000"
    let path (rest : List String) : Target :=
      { segments := ("" :: "api" :: "v1" :: "vms" :: id :: rest).map String.toList
        query := "kind=save".toList }
    let run (r : Request) (w : Rehearsal) := Task.run Rehearsal.world (handle default r) w
    ((run ⟨.delete, path ["checkpoints", "x"], none, []⟩ {}).1.status = 400 ∧
        (run ⟨.delete, path ["checkpoints", "x"], none, []⟩ {}).2.pipelineLog = []) ∧
      (run ⟨.post, path ["stop"], none, []⟩
        { executions := [.crashed "boom"] }).1.status = 500 := by
  intro id path run
  have hid : segment id.toList = .ok id := by decide +kernel
  have hx : segment "x".toList = .ok "x" := by decide +kernel
  have hvalid : Guid.parse? id = some .nil := by decide +kernel
  have hinvalid : Guid.parse? "x" = none := by decide +kernel
  have hkind : stopKind "kind=save".toList = .ok .save := by decide +kernel
  constructor
  · have hd : Dispatched ⟨.delete, path ["checkpoints", "x"], none, []⟩
        (.onCheckpoint id "x" .removeCheckpoint) := .removeCheckpoint rfl rfl (by decide) hid hx
    obtain ⟨-, hstate, raw, -, -, hreply⟩ := (dispatched_faithful hd Rehearsal.world default {}).1
      ⟨"x", List.mem_cons_of_mem _ List.mem_cons_self, hinvalid⟩
    exact ⟨hreply.status, congrArg Rehearsal.pipelineLog hstate⟩
  · have hd : Dispatched ⟨.post, path ["stop"], none, []⟩ (.onMachine id (.stop · .save)) :=
      .stop rfl rfl hid hkind
    have hids : ∀ raw ∈ (Handler.onMachine id (.stop · .save)).ids, Guid.parse? raw ≠ none := by
      intro raw hmem
      rw [List.mem_singleton.mp hmem, hvalid]
      exact Option.some_ne_none _
    obtain ⟨op, status, success, data, error, hop, -, -, hreports, hreply, -⟩ :=
      (dispatched_faithful hd Rehearsal.world default { executions := [.crashed "boom"] }).2 hids
    obtain rfl : op = .stop .nil .save := by
      rw [Handler.operation?, hvalid] at hop
      exact (Option.some.inj hop).symm
    have hcrashed : (Task.run Rehearsal.world ((Operation.stop .nil .save).call default)
        { executions := [.crashed "boom"] }).1 = .crashed "boom" := rfl
    rw [hcrashed] at hreports
    cases hreports
    exact hreply.status

end

end GuestControl.Web
