import GuestControl.Web.MediaType
import GuestControl.Web.Reply
import GuestControl.Web.Route
import GuestControl.Web.Target

/-!
# The agent

A request is first planned, without any effect: either the reply is known at
once, or there is one operation to perform, whose ending gives the reply.
Path segments are decoded first, then query or body; identifiers are read
last. `handle` performs what is planned.
-/

namespace GuestControl.Web

structure Request where
  method : Method
  target : Target
  contentType : Option String := none
  body : List UInt8 := []

inductive Plan where
  | reply (r : Reply)
  | perform (o : Operation)

-- ---------------------------------------------------------------------------
-- Parts of requests
-- ---------------------------------------------------------------------------

/-- A part of a request, or the reply that refuses the request. -/
abbrev Part (α : Type) := Except Reply α

def orReject {α : Type} (status : Nat) : Option α → Part α
  | some a => .ok a
  | none => .error (.rejection status)

def segment (s : List Char) : Part String := orReject 400 (segmentText? s)

def identifier (raw : String) : Part Guid :=
  match Guid.parse? raw with
  | some id => .ok id
  | none => .error (.invalidId raw)

def stopKind (query : List Char) : Part Machine.StopKind := do
  match ← orReject 400 (atMostOnce? "kind" (formFields query)) with
  | none => .ok .default
  | some name => orReject 400 (Machine.StopKind.names.lookup name)

def diskPath (query : List Char) : Part String := do
  let path ← orReject 400 (atMostOnce? "path" (formFields query))
  orReject 400 path

def bodyStatus : Json.Fault → Nat
  | .malformed => 400
  | .mistyped => 422

/-- The creation parameters in a body that is announced as JSON. -/
def creation (r : Request) : Part Machine.Creation := do
  let mediaType ← orReject 415 (r.contentType.bind MediaType.parse?)
  if !mediaType.isJson then .error (.rejection 415)
  else
    match Machine.Creation.decoder.run (Text.Utf8.scan r.body) with
    | .ok c => .ok c
    | .error f => .error (.rejection (bodyStatus f))

-- ---------------------------------------------------------------------------
-- Planning
-- ---------------------------------------------------------------------------

def onMachine (id : List Char) (f : Guid → Operation) : Part Operation := do
  let raw ← segment id
  .ok (f (← identifier raw))

def onCheckpoint (id checkpoint : List Char) (f : Guid → Guid → Operation) : Part Operation := do
  let raw ← segment id
  let rawCheckpoint ← segment checkpoint
  let id ← identifier raw
  .ok (f id (← identifier rawCheckpoint))

def changeOf (query : List Char) (id : List Char) : Deed → Part Operation
  | .start => onMachine id .start
  | .stop => do
    let raw ← segment id
    let kind ← stopKind query
    .ok (.stop (← identifier raw) kind)
  | .pause => onMachine id .pause
  | .resume => onMachine id .resume
  | .restart => onMachine id .restart

def greeting : Reply :=
  { status := 200, contentType := some "text/plain; charset=utf-8"
    body := "Hyper-V Operations API - Use /api/v1/vms or /api/v1/host" }

/-- What is planned for a method that the route is served by; `head` is
planned like `get`. -/
def planRoute (r : Request) : Route → Part Plan
  | .root => .ok (.reply greeting)
  | .health => .ok (.reply (.success (.text "ok")))
  | .host => .ok (.perform .getHost)
  | .diskSize => do .ok (.perform (.diskSize (← diskPath r.target.query)))
  | .machines =>
    if r.method = .post then do .ok (.perform (.create (← creation r)))
    else .ok (.perform .listMachines)
  | .machine id =>
    if r.method = .delete then do .ok (.perform (← onMachine id .remove))
    else do .ok (.perform (← onMachine id .getMachine))
  | .deed id d => do .ok (.perform (← changeOf r.target.query id d))
  | .checkpoints id =>
    if r.method = .post then do .ok (.perform (← onMachine id .takeCheckpoint))
    else do .ok (.perform (← onMachine id .listCheckpoints))
  | .checkpoint id cp => do .ok (.perform (← onCheckpoint id cp .removeCheckpoint))
  | .application id cp => do .ok (.perform (← onCheckpoint id cp .applyCheckpoint))

def plan (r : Request) : Plan :=
  if r.method = .options then .reply { status := 200 }
  else
    match Route.ofSegments? r.target.segments with
    | none => .reply (.rejection 404)
    | some route =>
      if route.methods.contains r.method then
        match planRoute r route with
        | .ok p => p
        | .error refusal => .reply refusal
      else .reply (.rejection 405)

-- ---------------------------------------------------------------------------
-- Handling
-- ---------------------------------------------------------------------------

/-- The reply as the method wants it: without a body if only its head was asked for. -/
def finish (r : Request) (reply : Reply) : Reply :=
  if r.method = .head then { reply with body := "" } else reply

def handle (g : Service.Gate) (r : Request) : Task Reply :=
  match plan r with
  | .reply reply => .done (finish r reply)
  | .perform o => Task.map (fun ending => finish r (.ofEnding o ending)) (o.call g)

end GuestControl.Web
