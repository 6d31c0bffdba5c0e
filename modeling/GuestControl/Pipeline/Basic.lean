import GuestControl.Value

/-!
# Command pipelines

A pipeline is one round trip to the shell: named commands in order, each
with named arguments in order. It is built from steps; an argument goes to
the command before it, and one before any command goes nowhere.
-/

namespace GuestControl

inductive Argument where
  | string (s : String)
  | int (i : Int64)
  | uint (n : UInt64)
  | bool (b : Bool)
  | guid (g : Guid)
  | reference (r : Record)
  deriving Inhabited

structure Command where
  name : String
  arguments : List (String × Argument)
  deriving Inhabited

/-- The first argument of a name. -/
def Command.argument? (c : Command) (name : String) : Option Argument := c.arguments.lookup name

inductive Mode where
  /-- Each command is a statement of its own. -/
  | separate
  /-- The output of each command goes into the next. -/
  | piped
  deriving DecidableEq, Repr

structure Pipeline where
  commands : List Command
  deriving Inhabited

namespace Pipeline

inductive Step where
  | command (name : String)
  | argument (name : String) (value : Argument)
  | optional (name : String) (value : Option Argument)

/-- Appends an argument to the last command. -/
def addArgument (name : String) (value : Argument) : List Command → List Command
  | [] => []
  | [c] => [{ c with arguments := c.arguments ++ [(name, value)] }]
  | c :: cs => c :: addArgument name value cs

def addStep (cs : List Command) : Step → List Command
  | .command name => cs ++ [{ name := name, arguments := [] }]
  | .argument name value => addArgument name value cs
  | .optional name (some value) => addArgument name value cs
  | .optional _ none => cs

def build (steps : List Step) : Pipeline := ⟨steps.foldl addStep []⟩

def size (p : Pipeline) : Nat := p.commands.length

def isEmpty (p : Pipeline) : Bool := p.commands.isEmpty

def names (p : Pipeline) : List String := p.commands.map (·.name)

end Pipeline

end GuestControl
