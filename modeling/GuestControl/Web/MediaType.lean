import GuestControl.Text.Ascii
import GuestControl.Text.Split

/-!
# Media types

A media type is a type and a subtype, and may have parameters. What follows
the last plus sign of the subtype is its suffix.
-/

namespace GuestControl.Web

structure MediaType where
  type : String
  subtype : String
  suffix : Option String
  deriving DecidableEq

namespace MediaType

/-- The characters of tokens that are neither letters nor digits. -/
def tokenMarks : List Char :=
  ['!', '#', '$', '%', '&', '\x27', '*', '+', '-', '.', '^', '_', '\x60', '|', '~']

def isTokenChar (c : Char) : Bool :=
  (48 ≤ c.toNat && c.toNat ≤ 57) || (65 ≤ c.toNat && c.toNat ≤ 90) ||
    (97 ≤ c.toNat && c.toNat ≤ 122) || tokenMarks.contains c

def isToken (s : List Char) : Bool := !s.isEmpty && s.all isTokenChar

/-- The text after a quoted value of which the opening quote is read; the value
has one character at least, and a quote as its first character is part of it. -/
def afterQuoted? : List Char → Option (List Char)
  | [] => none
  | c :: rest =>
    if isQuotable c then
      match rest.dropWhile fun d => isQuotable d && d ≠ '\x22' with
      | '\x22' :: after => some after
      | _ => none
    else none
where
  isQuotable (c : Char) : Bool := 32 ≤ c.toNat && c.toNat < 127

/-- The parameters, each `name=value` after a semicolon and blanks, are well
formed; `fuel` bounds their number. -/
def validParameters : Nat → List Char → Bool
  | 0, _ => false
  | fuel + 1, s =>
    let s := s.dropWhile (· = ' ')
    if s.isEmpty then true
    else
      let rest := s.dropWhile isTokenChar
      match rest with
      | '=' :: '\x22' :: quoted =>
        rest.length < s.length &&
          match afterQuoted? quoted with
          | none => false
          | some after =>
            match after.dropWhile (· = ' ') with
            | [] => true
            | ';' :: more => validParameters fuel more
            | _ => false
      | '=' :: value =>
        rest.length < s.length &&
          match value.dropWhile isTokenChar with
          | [] => true
          | ';' :: more => value.head? ≠ some ';' && validParameters fuel more
          | _ => false
      | _ => false

/-- Takes the suffix off a subtype. A plus sign at the beginning begins none. -/
def splitSuffix (s : List Char) : List Char × Option (List Char) :=
  let after := (s.reverse.takeWhile (· ≠ '+')).reverse
  let before := s.take (s.length - after.length - 1)
  if after.length < s.length ∧ !before.isEmpty then (before, some after) else (s, none)

/-- Reads a media type, without regard to case. -/
def parse? (text : String) : Option MediaType := do
  let (kind, parameters) := Text.cutAt ';' text.toList
  let (type, subtype) := Text.cutAt '/' kind
  let subtype ← subtype
  let parametersValid := match parameters with
    | none => true
    | some ps => validParameters (ps.length + 1) ps
  if isToken type && isToken subtype && parametersValid then
    let (name, suffix) := splitSuffix (subtype.map Text.lowerChar)
    some
      { type := String.ofList (type.map Text.lowerChar), subtype := String.ofList name
        suffix := suffix.map String.ofList }
  else none

def isJson (m : MediaType) : Bool :=
  m.type == "application" && (m.subtype == "json" || m.suffix == some "json")

end MediaType

end GuestControl.Web
