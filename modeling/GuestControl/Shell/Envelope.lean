import GuestControl.Error
import GuestControl.Json.Decoder
import GuestControl.Value

/-!
# The envelope of a pipeline's output

A wrapped script prints one object with its output records and its errors.
The shell may have changed the shape of both collections: a single element
stands bare, and a collection may be the `value` of an object that also holds
a `Count`. `flatten` takes these shapes back.
-/

namespace GuestControl

/-- What running a pipeline gave. Errors of commands are text here, and the
records that were produced nevertheless come with them. -/
structure Outcome where
  records : List Record := []
  errorText : String := ""
  errorCode : Int32 := 0
  deriving Inhabited

namespace Outcome

def hasError (o : Outcome) : Bool := !o.errorText.isEmpty

def first? (o : Outcome) : Option Record := o.records.head?

end Outcome

namespace Shell

structure CommandError where
  message : String := ""
  code : Int32 := 0
  deriving DecidableEq

namespace CommandError

def text (e : CommandError) : String := e.message ++ " (0x" ++ codeText 1 e.code ++ ")"

def messageOf : Json → Option String
  | .string s => some s
  | _ => none

def codeOf : Json → Option Int32
  | .number n => n.int?.bind Word.int32?
  | _ => none

/-- An error from an object with the members `Message` and `HResult`, each with
a default, or from an array of the two. -/
def ofJson? : Json → Option CommandError
  | .object ms => do
    let message ← match SortedMap.find? ms "Message" with
      | none => some ""
      | some j => messageOf j
    let code ← match SortedMap.find? ms "HResult" with
      | none => some 0
      | some j => codeOf j
    some { message := message, code := code }
  | .array [] => some {}
  | .array [m] => (messageOf m).map fun message => { message := message }
  | .array [m, c] => do
    let message ← messageOf m
    let code ← codeOf c
    some { message := message, code := code }
  | _ => none

end CommandError

structure Envelope where
  records : Json := .null
  errors : Json := .null

namespace Envelope

def fields : List (Json.Decoder.Field Envelope) :=
  [.of "Records" false Json.Decoder.value fun e x => { e with records := x },
    .of "Errors" false Json.Decoder.value fun e x => { e with errors := x }]

def decoder : Json.Decoder Envelope := .struct fields {}

mutual

/-- The elements of a collection, whatever shape the shell gave it. -/
def flatten : Json → List Json
  | .null => []
  | .array items => items
  | .object ms =>
    if ms.length = 2 ∧ SortedMap.contains ms "Count" ∧ SortedMap.contains ms "value" then
      flattenValue ms
    else [.object ms]
  | j => [j]

def flattenValue : List (String × Json) → List Json
  | [] => []
  | (k, j) :: rest => if k = "value" then flatten j else flattenValue rest

end

def recordOf? : Json → Option Record
  | .object ms => some (.ofJsonMembers ms)
  | _ => none

/-- The outcome that an envelope describes, unless one of its errors is none. -/
def outcome? (e : Envelope) : Option Outcome := do
  let errors ← (flatten e.errors).mapM CommandError.ofJson?
  some
    { records := (flatten e.records).filterMap recordOf?
      errorText := "\n".intercalate (errors.map (·.text))
      errorCode := (errors.head?.map (·.code)).getD 0 }

end Envelope

/-- The outcome that a process printed. What the decoder says of a text that it refuses
is the library's own affair, so `wording` may be anything. -/
def decodeOutput (wording : String → String) (printed : String) : Except ExecutorError Outcome :=
  match Envelope.decoder.runString (Text.trim printed) with
  | .error _ => .error (.undecodable (wording (Text.trim printed)))
  | .ok e =>
    match e.outcome? with
    | some o => .ok o
    | none => .error (.undecodable (wording (Text.trim printed)))

end Shell

end GuestControl
