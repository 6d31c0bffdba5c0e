import GuestControl.Web.Agent

/-!
# The route table

A request is sent on to a handler by its method and its path. What is planned for it
is then up to the texts in the path that must be identifiers.
-/

namespace GuestControl.Web

inductive Handler where
  | fixed (op : Operation)
  | onMachine (raw : String) (f : Guid → Operation)
  | onCheckpoint (raw rawCheckpoint : String) (f : Guid → Guid → Operation)

namespace Handler

def ids : Handler → List String
  | fixed _ => []
  | onMachine raw _ => [raw]
  | onCheckpoint raw rawCheckpoint _ => [raw, rawCheckpoint]

def operation? : Handler → Option Operation
  | fixed op => some op
  | onMachine raw f => (Guid.parse? raw).map f
  | onCheckpoint raw rawCheckpoint f =>
    (Guid.parse? raw).bind fun id => (Guid.parse? rawCheckpoint).map (f id)

end Handler

def Request.Reads (r : Request) : Prop := r.method = .get ∨ r.method = .head

def Request.At (r : Request) (segments : List (List Char)) : Prop :=
  r.target.segments = [] :: "api".toList :: "v1".toList :: segments

/-- The route table. Where a text is to be decoded, the request is sent on only if it
can be; a last segment that stands for an identifier is not empty. -/
inductive Dispatched (r : Request) : Handler → Prop
  | host : r.Reads → r.At ["host".toList] → Dispatched r (.fixed .getHost)
  | diskSize : r.Reads → r.At ["vhd".toList, "size".toList] →
      diskPath r.target.query = .ok path → Dispatched r (.fixed (.diskSize path))
  | listMachines : r.Reads → r.At ["vms".toList] → Dispatched r (.fixed .listMachines)
  | create : r.method = .post → r.At ["vms".toList] → creation r = .ok c →
      Dispatched r (.fixed (.create c))
  | getMachine : r.Reads → r.At ["vms".toList, machine] → machine ≠ [] → segment machine = .ok raw →
      Dispatched r (.onMachine raw .getMachine)
  | remove : r.method = .delete → r.At ["vms".toList, machine] → machine ≠ [] →
      segment machine = .ok raw → Dispatched r (.onMachine raw .remove)
  | start : r.method = .post → r.At ["vms".toList, machine, "start".toList] →
      segment machine = .ok raw → Dispatched r (.onMachine raw .start)
  | stop : r.method = .post → r.At ["vms".toList, machine, "stop".toList] →
      segment machine = .ok raw → stopKind r.target.query = .ok kind →
      Dispatched r (.onMachine raw (.stop · kind))
  | pause : r.method = .post → r.At ["vms".toList, machine, "pause".toList] →
      segment machine = .ok raw → Dispatched r (.onMachine raw .pause)
  | resume : r.method = .post → r.At ["vms".toList, machine, "resume".toList] →
      segment machine = .ok raw → Dispatched r (.onMachine raw .resume)
  | restart : r.method = .post → r.At ["vms".toList, machine, "restart".toList] →
      segment machine = .ok raw → Dispatched r (.onMachine raw .restart)
  | listCheckpoints : r.Reads → r.At ["vms".toList, machine, "checkpoints".toList] →
      segment machine = .ok raw → Dispatched r (.onMachine raw .listCheckpoints)
  | takeCheckpoint : r.method = .post → r.At ["vms".toList, machine, "checkpoints".toList] →
      segment machine = .ok raw → Dispatched r (.onMachine raw .takeCheckpoint)
  | removeCheckpoint : r.method = .delete →
      r.At ["vms".toList, machine, "checkpoints".toList, checkpoint] → checkpoint ≠ [] →
      segment machine = .ok raw → segment checkpoint = .ok rawCheckpoint →
      Dispatched r (.onCheckpoint raw rawCheckpoint .removeCheckpoint)
  | applyCheckpoint : r.method = .post →
      r.At ["vms".toList, machine, "checkpoints".toList, checkpoint, "apply".toList] →
      segment machine = .ok raw → segment checkpoint = .ok rawCheckpoint →
      Dispatched r (.onCheckpoint raw rawCheckpoint .applyCheckpoint)

inductive IsPath : Route → List (List Char) → Prop
  | host : IsPath .host ["host".toList]
  | diskSize : IsPath .diskSize ["vhd".toList, "size".toList]
  | machines : IsPath .machines ["vms".toList]
  | machine : machine ≠ [] → IsPath (.machine machine) ["vms".toList, machine]
  | deed : Deed.names.lookup name = some d →
      IsPath (.deed machine d) ["vms".toList, machine, name]
  | checkpoints : IsPath (.checkpoints machine) ["vms".toList, machine, "checkpoints".toList]
  | checkpoint : checkpoint ≠ [] → IsPath (.checkpoint machine checkpoint)
      ["vms".toList, machine, "checkpoints".toList, checkpoint]
  | application : IsPath (.application machine checkpoint)
      ["vms".toList, machine, "checkpoints".toList, checkpoint, "apply".toList]

variable {r : Request} {h : Handler} {route : Route} {machine checkpoint : List Char}
  {raw rawCheckpoint : String} {op : Operation} {segments : List (List Char)}

-- ---------------------------------------------------------------------------
-- Routes
-- ---------------------------------------------------------------------------

theorem IsPath.ofResource?_eq (h : IsPath route segments) :
    Route.ofResource? segments = some route := by
  cases h with
  | host | diskSize | machines => rfl
  | @machine machine hne =>
    cases machine with
    | nil => exact absurd rfl hne
    | cons => rfl
  | @deed name d machine hd =>
    have hname : name ≠ "checkpoints".toList := by
      rintro rfl
      cases hd
    have hdeed : (Deed.names.lookup name).map (.deed machine) = some (Route.deed machine d) := by
      rw [hd, Option.map_some]
    cases machine with
    | _ => exact (if_neg hname).trans hdeed
  | @checkpoints machine =>
    cases machine with
    | _ => rfl
  | @checkpoint checkpoint machine hne =>
    cases checkpoint with
    | nil => exact absurd rfl hne
    | cons =>
      cases machine with
      | _ => rfl
  | @application machine checkpoint =>
    cases machine with
    | _ =>
      cases checkpoint with
      | _ => rfl

theorem isPath_of_ofResource? (h : Route.ofResource? segments = some route) :
    IsPath route segments := by
  unfold Route.ofResource? at h
  split at h
  · cases h
    exact .host
  · cases h
    exact .diskSize
  · split at h
    · cases h
      exact .machines
    · cases h
    · rename_i hne
      cases h
      exact .machine hne
    · split at h
      · rename_i hkind
        subst hkind
        split at h
        · cases h
          exact .checkpoints
        · cases h
        · rename_i hne
          cases h
          exact .checkpoint hne
        · cases h
          exact .application
        · cases h
      · split at h
        · rename_i hrest
          obtain ⟨d, hd, rfl⟩ := Option.map_eq_some_iff.mp h
          rw [List.isEmpty_iff.mp hrest]
          exact .deed hd
        · cases h
  · cases h

theorem options_notMem_methods (route : Route) : .options ∉ route.methods := by
  cases route with
  | _ => simp [Route.methods]

-- ---------------------------------------------------------------------------
-- Plans
-- ---------------------------------------------------------------------------

def Handler.parse : Handler → Part Operation
  | fixed op => .ok op
  | onMachine raw f => (identifier raw).map f
  | onCheckpoint raw rawCheckpoint f => do
    let id ← identifier raw
    (identifier rawCheckpoint).map (f id)

def Plan.ofPart : Part Operation → Plan
  | .ok op => .perform op
  | .error refusal => .reply refusal

theorem plan_eq {part : Part Operation} (hat : r.At segments) (hpath : IsPath route segments)
    (hmethod : r.method ∈ route.methods)
    (hpart : planRoute r route = part.map .perform) : plan r = .ofPart part := by
  have hoptions : r.method ≠ .options := fun h => options_notMem_methods route (h ▸ hmethod)
  have hsegments : Route.ofSegments? r.target.segments = some route := by
    rw [hat]
    exact hpath.ofResource?_eq
  rw [plan, if_neg hoptions, hsegments]
  refine (if_pos (List.contains_iff_mem.mpr hmethod)).trans ?_
  rw [hpart]
  cases part with
  | _ => rfl

theorem Request.Reads.mem_methods (h : r.Reads) (hroute : [.get, .head] ⊆ route.methods) :
    r.method ∈ route.methods := by
  rcases h with h | h
  · exact h ▸ hroute List.mem_cons_self
  · exact h ▸ hroute (List.mem_cons_of_mem _ List.mem_cons_self)

theorem Request.Reads.ne_post (h : r.Reads) : r.method ≠ .post := by
  rcases h with h | h
  · simp [h]
  · simp [h]

theorem Request.Reads.ne_delete (h : r.Reads) : r.method ≠ .delete := by
  rcases h with h | h
  · simp [h]
  · simp [h]

theorem onMachine_eq (f : Guid → Operation) (h : segment machine = .ok raw) :
    onMachine machine f = (Handler.onMachine raw f).parse := by
  simp only [onMachine, h, Handler.parse, bind, Except.bind]
  cases identifier raw with
  | _ => rfl

theorem onCheckpoint_eq (f : Guid → Guid → Operation) (h : segment machine = .ok raw)
    (h' : segment checkpoint = .ok rawCheckpoint) : onCheckpoint machine checkpoint f =
      (Handler.onCheckpoint raw rawCheckpoint f).parse := by
  simp only [onCheckpoint, h, h', Handler.parse, bind, Except.bind]
  cases identifier raw with
  | error => rfl
  | ok id =>
    cases identifier rawCheckpoint with
    | _ => rfl

theorem bind_perform (part : Part Operation) :
    (part >>= fun op => .ok (.perform op) : Part Plan) = part.map .perform := by
  cases part with
  | _ => rfl

theorem plan_deed {name : List Char} {d : Deed} {part : Part Operation}
    (hmethod : r.method = .post) (hat : r.At ["vms".toList, machine, name])
    (hd : Deed.names.lookup name = some d) (hpart : changeOf r.target.query machine d = part) :
    plan r = .ofPart part := by
  refine plan_eq hat (.deed hd) (by simp [hmethod, Route.methods]) ?_
  rw [planRoute, hpart, bind_perform]

theorem Dispatched.plan_eq (hd : Dispatched r h) : plan r = .ofPart h.parse := by
  cases hd with
  | host hreads hat =>
    exact Web.plan_eq hat .host (hreads.mem_methods (by simp [Route.methods])) rfl
  | diskSize hreads hat hpath =>
    refine Web.plan_eq hat .diskSize (hreads.mem_methods (by simp [Route.methods])) ?_
    rw [planRoute, hpath]
    rfl
  | listMachines hreads hat =>
    refine Web.plan_eq hat .machines (hreads.mem_methods (by simp [Route.methods])) ?_
    rw [planRoute, if_neg hreads.ne_post]
    rfl
  | create hmethod hat hc =>
    refine Web.plan_eq hat .machines (by simp [hmethod, Route.methods]) ?_
    rw [planRoute, if_pos hmethod, hc]
    rfl
  | getMachine hreads hat hne hraw =>
    refine Web.plan_eq hat (.machine hne) (hreads.mem_methods (by simp [Route.methods])) ?_
    rw [planRoute, if_neg hreads.ne_delete, onMachine_eq _ hraw, bind_perform]
  | remove hmethod hat hne hraw =>
    refine Web.plan_eq hat (.machine hne) (by simp [hmethod, Route.methods]) ?_
    rw [planRoute, if_pos hmethod, onMachine_eq _ hraw, bind_perform]
  | start hmethod hat hraw | pause hmethod hat hraw | resume hmethod hat hraw
  | restart hmethod hat hraw =>
    exact plan_deed hmethod hat rfl (onMachine_eq _ hraw)
  | stop hmethod hat hraw hkind =>
    refine plan_deed hmethod hat rfl ?_
    simp only [changeOf, hraw, hkind, Handler.parse, bind, Except.bind]
    cases identifier _ with
    | _ => rfl
  | listCheckpoints hreads hat hraw =>
    refine Web.plan_eq hat .checkpoints (hreads.mem_methods (by simp [Route.methods])) ?_
    rw [planRoute, if_neg hreads.ne_post, onMachine_eq _ hraw, bind_perform]
  | takeCheckpoint hmethod hat hraw =>
    refine Web.plan_eq hat .checkpoints (by simp [hmethod, Route.methods]) ?_
    rw [planRoute, if_pos hmethod, onMachine_eq _ hraw, bind_perform]
  | removeCheckpoint hmethod hat hne hraw hcheckpoint =>
    refine Web.plan_eq hat (.checkpoint hne) (by simp [hmethod, Route.methods]) ?_
    rw [planRoute, onCheckpoint_eq _ hraw hcheckpoint, bind_perform]
  | applyCheckpoint hmethod hat hraw hcheckpoint =>
    refine Web.plan_eq hat .application (by simp [hmethod, Route.methods]) ?_
    rw [planRoute, onCheckpoint_eq _ hraw hcheckpoint, bind_perform]

theorem identifier_ok {id : Guid} : identifier raw = .ok id ↔ Guid.parse? raw = some id := by
  unfold identifier
  cases Guid.parse? raw with
  | _ => simp

theorem identifier_error {refusal : Reply} :
    identifier raw = .error refusal ↔ Guid.parse? raw = none ∧ refusal = .invalidId raw := by
  unfold identifier
  cases Guid.parse? raw with
  | _ => simp [eq_comm]

theorem Handler.parse_of_invalid (hids : ∃ raw ∈ h.ids, Guid.parse? raw = none) :
    ∃ raw ∈ h.ids, Guid.parse? raw = none ∧ h.parse = .error (.invalidId raw) := by
  cases h with
  | fixed op =>
    obtain ⟨raw, hmem, -⟩ := hids
    cases hmem
  | onMachine raw f =>
    obtain ⟨raw', hmem, hnone⟩ := hids
    obtain rfl := List.mem_singleton.mp hmem
    refine ⟨raw', hmem, hnone, ?_⟩
    rw [parse, identifier_error.mpr ⟨hnone, rfl⟩]
    rfl
  | onCheckpoint raw rawCheckpoint f =>
    cases hraw : Guid.parse? raw with
    | none =>
      refine ⟨raw, List.mem_cons_self, hraw, ?_⟩
      rw [parse, identifier_error.mpr ⟨hraw, rfl⟩]
      rfl
    | some id =>
      have hnone : Guid.parse? rawCheckpoint = none := by
        simpa [ids, hraw] using hids
      refine ⟨rawCheckpoint, List.mem_cons_of_mem _ List.mem_cons_self, hnone, ?_⟩
      rw [parse, identifier_ok.mpr hraw, identifier_error.mpr ⟨hnone, rfl⟩]
      rfl

theorem Handler.parse_ok : h.parse = .ok op ↔ h.operation? = some op := by
  cases h with
  | fixed op' => simp [parse, operation?]
  | onMachine raw f =>
    simp only [parse, operation?, identifier]
    cases Guid.parse? raw with
    | _ => simp [Except.map]
  | onCheckpoint raw rawCheckpoint f =>
    simp only [parse, operation?, identifier]
    cases Guid.parse? raw with
    | none => simp [bind, Except.bind]
    | some id =>
      cases Guid.parse? rawCheckpoint with
      | _ => simp [bind, Except.bind, Except.map]

theorem Handler.operation?_of_valid (hids : ∀ raw ∈ h.ids, Guid.parse? raw ≠ none) :
    ∃ op, h.operation? = some op := by
  cases h with
  | fixed op => exact ⟨op, rfl⟩
  | onMachine raw f =>
    obtain ⟨id, hid⟩ := Option.ne_none_iff_exists'.mp (hids raw List.mem_cons_self)
    exact ⟨f id, by rw [operation?, hid, Option.map_some]⟩
  | onCheckpoint raw rawCheckpoint f =>
    obtain ⟨id, hid⟩ := Option.ne_none_iff_exists'.mp (hids raw List.mem_cons_self)
    obtain ⟨cp, hcp⟩ := Option.ne_none_iff_exists'.mp
      (hids rawCheckpoint (List.mem_cons_of_mem _ List.mem_cons_self))
    exact ⟨f id cp, by rw [operation?, hid, hcp, Option.bind_some, Option.map_some]⟩

-- ---------------------------------------------------------------------------
-- What is performed
-- ---------------------------------------------------------------------------

theorem Part.bind_eq_ok {α β : Type} {part : Part α} {f : α → Part β} {b : β} :
    part >>= f = .ok b ↔ ∃ a, part = .ok a ∧ f a = .ok b := by
  cases part with
  | _ => simp [bind, Except.bind]

theorem onMachine_ok {f : Guid → Operation} (h : onMachine machine f = .ok op) :
    ∃ raw, segment machine = .ok raw ∧ (Handler.onMachine raw f).operation? = some op := by
  obtain ⟨raw, hraw, h⟩ := Part.bind_eq_ok.mp h
  obtain ⟨id, hid, h⟩ := Part.bind_eq_ok.mp h
  cases h
  exact ⟨raw, hraw, by rw [Handler.operation?, identifier_ok.mp hid, Option.map_some]⟩

theorem onCheckpoint_ok {f : Guid → Guid → Operation}
    (h : onCheckpoint machine checkpoint f = .ok op) :
    ∃ raw rawCheckpoint, segment machine = .ok raw ∧ segment checkpoint = .ok rawCheckpoint ∧
      (Handler.onCheckpoint raw rawCheckpoint f).operation? = some op := by
  obtain ⟨raw, hraw, h⟩ := Part.bind_eq_ok.mp h
  obtain ⟨rawCheckpoint, hcheckpoint, h⟩ := Part.bind_eq_ok.mp h
  obtain ⟨id, hid, h⟩ := Part.bind_eq_ok.mp h
  obtain ⟨cp, hcp, h⟩ := Part.bind_eq_ok.mp h
  cases h
  refine ⟨raw, rawCheckpoint, hraw, hcheckpoint, ?_⟩
  rw [Handler.operation?, identifier_ok.mp hid, Option.bind_some, identifier_ok.mp hcp,
    Option.map_some]

theorem eq_ok_of_bind_perform {part : Part Operation}
    (h : (part >>= fun op => .ok (.perform op) : Part Plan) = .ok (.perform op)) :
    part = .ok op := by
  obtain ⟨op', hpart, h⟩ := Part.bind_eq_ok.mp h
  cases h
  exact hpart

theorem dispatched_of_changeOf {name : List Char} {d : Deed} (hmethod : r.method = .post)
    (hat : r.At ["vms".toList, machine, name]) (hd : Deed.names.lookup name = some d)
    (h : changeOf r.target.query machine d = .ok op) :
    ∃ h, Dispatched r h ∧ h.operation? = some op := by
  have hname : (name, d) ∈ Deed.names := by
    obtain ⟨before, after, heq, -⟩ := List.lookup_eq_some_iff.mp hd
    simp [heq]
  simp only [Deed.names, List.mem_cons, Prod.mk.injEq, List.not_mem_nil, or_false] at hname
  obtain ⟨rfl, rfl⟩ | ⟨rfl, rfl⟩ | ⟨rfl, rfl⟩ | ⟨rfl, rfl⟩ | ⟨rfl, rfl⟩ := hname
  · obtain ⟨raw, hraw, hop⟩ := onMachine_ok h
    exact ⟨_, .start hmethod hat hraw, hop⟩
  · obtain ⟨raw, hraw, h⟩ := Part.bind_eq_ok.mp h
    obtain ⟨kind, hkind, h⟩ := Part.bind_eq_ok.mp h
    obtain ⟨id, hid, h⟩ := Part.bind_eq_ok.mp h
    cases h
    refine ⟨_, .stop hmethod hat hraw hkind, ?_⟩
    rw [Handler.operation?, identifier_ok.mp hid, Option.map_some]
  · obtain ⟨raw, hraw, hop⟩ := onMachine_ok h
    exact ⟨_, .pause hmethod hat hraw, hop⟩
  · obtain ⟨raw, hraw, hop⟩ := onMachine_ok h
    exact ⟨_, .resume hmethod hat hraw, hop⟩
  · obtain ⟨raw, hraw, hop⟩ := onMachine_ok h
    exact ⟨_, .restart hmethod hat hraw, hop⟩

theorem dispatched_of_planRoute (hat : r.At segments) (hpath : IsPath route segments)
    (hmethod : r.method ∈ route.methods) (h : planRoute r route = .ok (.perform op)) :
    ∃ h, Dispatched r h ∧ h.operation? = some op := by
  cases hpath with
  | host =>
    cases h
    exact ⟨_, .host (by simpa [Request.Reads, Route.methods] using hmethod) hat, rfl⟩
  | diskSize =>
    obtain ⟨path, hpath, h⟩ := Part.bind_eq_ok.mp h
    cases h
    exact ⟨_, .diskSize (by simpa [Request.Reads, Route.methods] using hmethod) hat hpath, rfl⟩
  | machines =>
    rw [planRoute] at h
    split at h
    · rename_i hpost
      obtain ⟨c, hc, h⟩ := Part.bind_eq_ok.mp h
      cases h
      exact ⟨_, .create hpost hat hc, rfl⟩
    · rename_i hpost
      cases h
      exact ⟨_, .listMachines (by simpa [Request.Reads, Route.methods, hpost] using hmethod) hat,
        rfl⟩
  | machine hne =>
    rw [planRoute] at h
    split at h
    · rename_i hdelete
      obtain ⟨raw, hraw, hop⟩ := onMachine_ok (eq_ok_of_bind_perform h)
      exact ⟨_, .remove hdelete hat hne hraw, hop⟩
    · rename_i hdelete
      obtain ⟨raw, hraw, hop⟩ := onMachine_ok (eq_ok_of_bind_perform h)
      exact ⟨_, .getMachine (by simpa [Request.Reads, Route.methods, hdelete] using hmethod) hat
        hne hraw, hop⟩
  | deed hd =>
    exact dispatched_of_changeOf (by simpa [Route.methods] using hmethod) hat hd
      (eq_ok_of_bind_perform h)
  | checkpoints =>
    rw [planRoute] at h
    split at h
    · rename_i hpost
      obtain ⟨raw, hraw, hop⟩ := onMachine_ok (eq_ok_of_bind_perform h)
      exact ⟨_, .takeCheckpoint hpost hat hraw, hop⟩
    · rename_i hpost
      obtain ⟨raw, hraw, hop⟩ := onMachine_ok (eq_ok_of_bind_perform h)
      exact ⟨_, .listCheckpoints (by simpa [Request.Reads, Route.methods, hpost] using hmethod)
        hat hraw, hop⟩
  | checkpoint hne =>
    obtain ⟨raw, rawCheckpoint, hraw, hcheckpoint, hop⟩ := onCheckpoint_ok (eq_ok_of_bind_perform h)
    exact ⟨_, .removeCheckpoint (by simpa [Route.methods] using hmethod) hat hne hraw hcheckpoint,
      hop⟩
  | application =>
    obtain ⟨raw, rawCheckpoint, hraw, hcheckpoint, hop⟩ := onCheckpoint_ok (eq_ok_of_bind_perform h)
    exact ⟨_, .applyCheckpoint (by simpa [Route.methods] using hmethod) hat hraw hcheckpoint, hop⟩

theorem dispatched_of_plan (hplan : plan r = .perform op) :
    ∃ h, Dispatched r h ∧ h.operation? = some op := by
  rw [plan] at hplan
  split at hplan
  · cases hplan
  split at hplan
  · cases hplan
  rename_i route hroute
  split at hplan
  · rename_i hmethod
    split at hplan
    · rename_i hpart
      subst hplan
      unfold Route.ofSegments? at hroute
      split at hroute
      · cases hroute
        cases hpart
      · cases hroute
        cases hpart
      · rename_i hat
        exact dispatched_of_planRoute hat (isPath_of_ofResource? hroute)
          (List.contains_iff_mem.mp hmethod) hpart
      · cases hroute
    · cases hplan
  · cases hplan

/-- The operations that are performed are those that the table has for the request. -/
theorem plan_perform_iff :
    plan r = .perform op ↔ ∃ h, Dispatched r h ∧ h.operation? = some op := by
  constructor
  · exact dispatched_of_plan
  · rintro ⟨h, hd, hop⟩
    rw [hd.plan_eq, Handler.parse_ok.mpr hop, Plan.ofPart]

end GuestControl.Web
