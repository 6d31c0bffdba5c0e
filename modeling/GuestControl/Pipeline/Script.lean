import GuestControl.Pipeline.Basic
import GuestControl.Pipeline.Cmdlet
import GuestControl.Text.Quoted

/-!
# Pipelines as script text

A string becomes a quoted literal. An object cannot cross into another
process, so a reference becomes a look-up of the object by its identifier.
The wrapped script collects output objects and errors and prints both as one
JSON document.
-/

namespace GuestControl

namespace Argument

def lookUp (r : Record) : String :=
  match r.get? Member.id with
  | some (.string id) =>
    "(" ++ Cmdlet.getMachine ++ " -" ++ Parameter.id ++ " " ++ Text.Quoted.literal id ++ ")"
  | some (.guid id) =>
    "(" ++ Cmdlet.getMachine ++ " -" ++ Parameter.id ++ " '" ++ id.text ++ "')"
  | _ => "$null"

def script (name : String) : Argument → String
  | .bool b => "-" ++ name ++ ":$" ++ (if b then "true" else "false")
  | .string s => "-" ++ name ++ " " ++ Text.Quoted.literal s
  | .int i => "-" ++ name ++ " " ++ Text.Numeral.signed i.toInt
  | .uint n => "-" ++ name ++ " " ++ Text.Numeral.decimal n.toNat
  | .guid g => "-" ++ name ++ " '" ++ g.text ++ "'"
  | .reference r => "-" ++ name ++ " " ++ lookUp r

end Argument

def Command.script (c : Command) : String :=
  c.name ++ String.join (c.arguments.map fun a => " " ++ a.2.script a.1)

def Mode.separator : Mode → String
  | .separate => "; "
  | .piped => " | "

namespace Pipeline

def script (mode : Mode) (p : Pipeline) : String :=
  mode.separator.intercalate (p.commands.map (·.script))

def wrapBefore : String :=
  "$ProgressPreference = 'SilentlyContinue'\n$Error.Clear()\n$records = @()\n" ++
    "try \x7b $records = @("

def wrapAfter : String :=
  ") \x7d catch \x7b \x7d\n$all = @($Error)\n[array]::Reverse($all)\n" ++
    "$errors = @($all | ForEach-Object \x7b\n" ++
    "    $ex = if ($_ -is [System.Management.Automation.ErrorRecord]) " ++
    "\x7b $_.Exception \x7d else \x7b $_ \x7d\n" ++
    "    [pscustomobject]@\x7b Message = $ex.Message; HResult = $ex.HResult \x7d\n\x7d)\n" ++
    "ConvertTo-Json -InputObject " ++
    "([pscustomobject]@\x7b Records = $records; Errors = $errors \x7d) -Depth 2 -Compress"

/-- Wraps a script so that its output objects and errors come back as JSON. -/
def wrap (body : String) : String := wrapBefore ++ body ++ wrapAfter

end Pipeline

end GuestControl
