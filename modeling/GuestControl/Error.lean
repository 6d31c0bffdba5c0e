import GuestControl.Duration
import GuestControl.Guid
import GuestControl.Record.Conversion
import GuestControl.Service.Status

/-!
# Failures

What can go wrong, by cause: the controller of the management service, the
shell that runs pipelines, and an operation as a whole. Each kind has one
function that words it.
-/

namespace GuestControl

def unexpectedCode : Int32 := -2147418113

/-- A code as the 32 bits that it consists of. -/
def codeText (width : Nat) (code : Int32) : String :=
  Text.Numeral.hexCapital width code.toUInt32.toNat

inductive ServiceError where
  | timeout (target : Service.Status) (limit : Duration)
  | unknownStatus (text : String)
  | command (text : String)
  | io (text : String)
  deriving DecidableEq

def ServiceError.message : ServiceError → String
  | .timeout target limit =>
    "timed out after " ++ limit.text ++ " waiting for status " ++ target.name
  | .unknownStatus text => "unrecognized service status '" ++ text ++ "'"
  | .command text => "service control command failed: " ++ text
  | .io text => "IO error: " ++ text

/-- The status that a text names; the text without blanks around it is reported otherwise. -/
def Service.Status.read (text : String) : Except ServiceError Service.Status :=
  match Service.Status.parse? text with
  | some status => .ok status
  | none => .error (.unknownStatus (Text.trim text))

inductive ExecutorError where
  | launch (program : String) (text : String)
  | exit (status : Int) (text : String)
  /-- What was printed does not decode; the text is the decoder's. -/
  | undecodable (text : String)
  deriving DecidableEq

def ExecutorError.message : ExecutorError → String
  | .launch program text => "failed to launch shell '" ++ program ++ "': " ++ text
  | .exit status text =>
    "shell exited with status " ++ Text.Numeral.signed status ++ ": " ++ text
  | .undecodable text => "shell output could not be decoded: " ++ text

inductive Error where
  | serviceUnavailable (service : String) (cause : ServiceError)
  | operationFailed (operation : String) (resource : Option Guid) (text : String) (code : Int32)
  | notFound (resource : Guid) (code : Int32)
  | materialization (field expected found : String)
  deriving DecidableEq

namespace Error

/-- An operation failed with a code of the shell, where zero is none. -/
def failed (operation : String) (resource : Option Guid) (text : String) (code : Int32) : Error :=
  .operationFailed operation resource text (if code = 0 then unexpectedCode else code)

def ofMismatch (field : String) (m : Mismatch) : Error :=
  .materialization field m.expected m.found

def message : Error → String
  | serviceUnavailable service cause =>
    "Virtual machine management service '" ++ service ++ "' is unavailable: " ++ cause.message
  | operationFailed operation resource text code =>
    "Operation '" ++ operation ++ "' failed" ++
      (match resource with
        | some id => " for " ++ id.text
        | none => "") ++
      " (code 0x" ++ codeText 8 code ++ "): " ++ text
  | notFound resource code =>
    "Resource not found: " ++ resource.text ++ " (code 0x" ++ codeText 8 code ++ ")"
  | materialization field expected found =>
    "Cannot convert member '" ++ field ++ "' to " ++ expected ++ ": found " ++ found

def code? : Error → Option Int32
  | operationFailed _ _ _ code | notFound _ code => some code
  | _ => none

def isNotFound : Error → Bool
  | notFound .. => true
  | _ => false

def isServiceUnavailable : Error → Bool
  | serviceUnavailable .. => true
  | _ => false

def cause? : Error → Option ServiceError
  | serviceUnavailable _ cause => some cause
  | _ => none

end Error

end GuestControl
