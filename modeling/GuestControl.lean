import GuestControl.Binary64
import GuestControl.Binary64.Shortest
import GuestControl.Crew
import GuestControl.Duration
import GuestControl.Error
import GuestControl.Guid
import GuestControl.Json.Decoder
import GuestControl.Json.Doc
import GuestControl.Json.Number
import GuestControl.Json.Reading
import GuestControl.Json.Value
import GuestControl.Machine.Basic
import GuestControl.Machine.Creation
import GuestControl.Machine.State
import GuestControl.Manager.Basic
import GuestControl.Manager.Checkpoints
import GuestControl.Manager.Lifecycle
import GuestControl.Manager.Query
import GuestControl.Operation
import GuestControl.Pipeline.Basic
import GuestControl.Pipeline.Cmdlet
import GuestControl.Pipeline.Script
import GuestControl.Proofs.Crew.Discipline
import GuestControl.Proofs.Crew.InLine
import GuestControl.Proofs.Crew.Locality
import GuestControl.Proofs.Crew.Serial
import GuestControl.Proofs.Crew.Site
import GuestControl.Proofs.Operation.Course
import GuestControl.Proofs.Operation.Dialogue
import GuestControl.Proofs.Operation.Effects
import GuestControl.Proofs.Operation.Failures
import GuestControl.Proofs.Operation.Slots
import GuestControl.Proofs.Pipeline.Lexemes
import GuestControl.Proofs.Pipeline.Literals
import GuestControl.Proofs.Pipeline.Unambiguous
import GuestControl.Proofs.Run
import GuestControl.Proofs.Shell.FailClosed
import GuestControl.Proofs.Turnstile.Alone
import GuestControl.Proofs.Turnstile.Books
import GuestControl.Proofs.Turnstile.Exclusion
import GuestControl.Proofs.Turnstile.Fifo
import GuestControl.Proofs.Turnstile.Line
import GuestControl.Proofs.Turnstile.Order
import GuestControl.Proofs.Turnstile.Queues
import GuestControl.Proofs.Turnstile.Quiet
import GuestControl.Proofs.Turnstile.Registry
import GuestControl.Proofs.Turnstile.Step
import GuestControl.Proofs.Turnstile.Wakeup
import GuestControl.Record.Conversion
import GuestControl.Record.Schema
import GuestControl.Rehearsal
import GuestControl.Service.Gate
import GuestControl.Service.Status
import GuestControl.Settings.Basic
import GuestControl.Settings.Loading
import GuestControl.Shell.Console
import GuestControl.Shell.Envelope
import GuestControl.Shell.Process
import GuestControl.SortedMap
import GuestControl.Task
import GuestControl.Text.Ascii
import GuestControl.Text.Blank
import GuestControl.Text.Numeral
import GuestControl.Text.Order
import GuestControl.Text.Quoted
import GuestControl.Text.Split
import GuestControl.Text.Utf8
import GuestControl.Toml.Assembly
import GuestControl.Toml.Basic
import GuestControl.Toml.Decoder
import GuestControl.Toml.Reading
import GuestControl.Toml.Scalar
import GuestControl.Toml.Strings
import GuestControl.Turnstile.Script
import GuestControl.Turnstile.Settling
import GuestControl.Turnstile.State
import GuestControl.Value
import GuestControl.Web.Agent
import GuestControl.Web.MediaType
import GuestControl.Web.Reply
import GuestControl.Web.Route
import GuestControl.Web.Target
import GuestControl.Word
import GuestControl.Proofs.Turnstile.Independence
import GuestControl.Proofs.Operation.Verdicts
import GuestControl.Proofs.Shell.Shapes
import GuestControl.Proofs.Web.Agent
import GuestControl.Proofs.Operation.Removal
import GuestControl.Proofs.Operation.Checkpoints
import GuestControl.Proofs.Operation.Creation
import GuestControl.Proofs.Record.Table
import GuestControl.Proofs.Service.Gate
import GuestControl.Proofs.Shell.Polling
import GuestControl.Proofs.Shell.Readiness
import GuestControl.Proofs.Crew.Bracket
import GuestControl.Proofs.Text.Identifiers
import GuestControl.Proofs.Operation.Settings
import GuestControl.Proofs.Text.Numerals
import GuestControl.Proofs.Binary64.Rounding
import GuestControl.Proofs.Json.Decoding
import GuestControl.Proofs.Json.RoundTrip
import GuestControl.Proofs.Machine.Codec
import GuestControl.Proofs.Record.Literals
import GuestControl.Proofs.Record.Spelling
import GuestControl.Proofs.Pipeline.Building
import GuestControl.Proofs.Json.Lossless
import GuestControl.Proofs.Settings.Agreement
