import GuestControl.Machine.State

/-!
# Routes

The paths that the agent serves, and the methods of each. Segments are
compared as they are written. A segment that stands for an identifier may be
empty unless it is the last one; a path that ends in a slash has no route, the
root aside.
-/

namespace GuestControl.Web

inductive Method where
  | get
  | head
  | post
  | delete
  | options
  | other
  deriving DecidableEq, Repr

def Method.ofName : String → Method
  | "GET" => .get
  | "HEAD" => .head
  | "POST" => .post
  | "DELETE" => .delete
  | "OPTIONS" => .options
  | _ => .other

/-- What can be done to a machine by posting to its path. -/
inductive Deed where
  | start
  | stop
  | pause
  | resume
  | restart
  deriving DecidableEq, Repr

def Deed.names : List (List Char × Deed) :=
  [("start".toList, .start), ("stop".toList, .stop), ("pause".toList, .pause),
    ("resume".toList, .resume), ("restart".toList, .restart)]

/-- A path with its segments that stand for identifiers, still encoded. -/
inductive Route where
  | root
  | health
  | host
  | diskSize
  | machines
  | machine (id : List Char)
  | deed (id : List Char) (d : Deed)
  | checkpoints (id : List Char)
  | checkpoint (id checkpoint : List Char)
  | application (id checkpoint : List Char)
  deriving DecidableEq

namespace Route

def ofResource? : List (List Char) → Option Route
  | [['h', 'o', 's', 't']] => some .host
  | [['v', 'h', 'd'], ['s', 'i', 'z', 'e']] => some .diskSize
  | ['v', 'm', 's'] :: rest =>
    match rest with
    | [] => some .machines
    | [[]] => none
    | [id] => some (.machine id)
    | id :: kind :: rest =>
      if kind = "checkpoints".toList then
        match rest with
        | [] => some (.checkpoints id)
        | [[]] => none
        | [cp] => some (.checkpoint id cp)
        | [cp, ['a', 'p', 'p', 'l', 'y']] => some (.application id cp)
        | _ => none
      else if rest.isEmpty then (Deed.names.lookup kind).map (.deed id)
      else none
  | _ => none

def ofSegments? : List (List Char) → Option Route
  | [[], []] => some .root
  | [[], ['h', 'e', 'a', 'l', 't', 'h']] => some .health
  | [] :: ['a', 'p', 'i'] :: ['v', '1'] :: rest => ofResource? rest
  | _ => none

def methods : Route → List Method
  | root | health | host | diskSize => [.get, .head]
  | machines => [.get, .head, .post]
  | machine _ => [.get, .head, .delete]
  | deed .. => [.post]
  | checkpoints _ => [.get, .head, .post]
  | checkpoint .. => [.delete]
  | application .. => [.post]

end Route

end GuestControl.Web
