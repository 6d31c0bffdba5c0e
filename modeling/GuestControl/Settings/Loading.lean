import GuestControl.Settings.Basic
import GuestControl.Service.Gate
import GuestControl.Shell.Console
import GuestControl.Text.Utf8
import GuestControl.Toml.Decoder
import GuestControl.Toml.Reading

/-!
# Loading settings

The settings of machine control stand in the table `hyperv`, which has one
reading, whether it is read alone or with the agent's other settings. A file
that does not exist gives the defaults; one that exists is read as a whole or
not at all.
-/

namespace GuestControl.Settings

open Toml (Decoder)

namespace Readiness

def fields : List (Toml.Field Readiness) :=
  [.of "name" Decoder.string fun r x => { r with service := x },
    .of "transition_timeout_secs" Decoder.uint64 fun r x => { r with transitionSeconds := x },
    .of "poll_interval_ms" Decoder.uint64 fun r x => { r with pollMilliseconds := x }]

def decoder : Decoder Readiness := .struct fields {}

end Readiness

namespace Control

def fields : List (Toml.Field Control) :=
  [.of "shell" Decoder.string fun c x => { c with shell := x },
    .of "service" Readiness.decoder fun c x => { c with readiness := x }]

def decoder : Decoder Control := .struct fields {}

/-- The only part of a document that concerns machine control. -/
def field : Toml.Field Control := .of "hyperv" decoder fun _ x => x

def ofToml? (text : String) : Option Control := (Toml.read? text).bind (Decoder.members [field] {})

def gate (c : Control) : Service.Gate :=
  { service := c.readiness.service, limit := c.readiness.transitionLimit }

def console (c : Control) (wording : String → String) : Shell.Console :=
  { program := c.shell, service := c.readiness.service, wording := wording }

end Control

namespace Server

def fields : List (Toml.Field Server) :=
  [.of "host" Decoder.string fun s x => { s with host := x },
    .of "port" Decoder.uint16 fun s x => { s with port := x }]

def decoder : Decoder Server := .struct fields {}

end Server

namespace Logging

def fields : List (Toml.Field Logging) :=
  [.of "level" Decoder.string fun l x => { l with level := x }]

def decoder : Decoder Logging := .struct fields {}

end Logging

namespace Agent

def fields : List (Toml.Field Agent) :=
  [.of "server" Server.decoder fun a x => { a with server := x },
    .of "logging" Logging.decoder fun a x => { a with logging := x },
    .of "hyperv" Control.decoder fun a x => { a with control := x }]

def ofToml? (text : String) : Option Agent := (Toml.read? text).bind (Decoder.members fields {})

end Agent

-- ---------------------------------------------------------------------------
-- Files
-- ---------------------------------------------------------------------------

inductive File where
  | absent
  | directory
  | octets (content : List UInt8)

inductive Fault where
  | unreadable
  | malformed
  deriving DecidableEq

/-- The settings of a file; the defaults if there is no file. -/
def load {α : Type} (ofText : String → Option α) (default : α) : File → Except Fault α
  | .absent => .ok default
  | .directory => .error .unreadable
  | .octets content =>
    match Text.Utf8.strict? content with
    | none => .error .unreadable
    | some text =>
      match ofText text with
      | none => .error .malformed
      | some a => .ok a

end GuestControl.Settings
