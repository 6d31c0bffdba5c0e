import GuestControl.Text.Numeral

/-!
# Blanks, comments and strings of TOML

Lines end in a line feed; a carriage return is part of the line feed that it
stands before (`lineFeeds`) and nothing else. Strings stand in double quotes,
with escapes, or in single quotes, without; in three quotes they may have
several lines, and the first line may be empty.
-/

namespace GuestControl.Toml

/-- The text with a line feed at the end of every line. -/
def lineFeeds : List Char → List Char
  | '\r' :: '\n' :: rest => '\n' :: lineFeeds rest
  | c :: rest => c :: lineFeeds rest
  | [] => []

def isBlank (c : Char) : Bool := c = ' ' || c = '\t'

def skipBlanks (s : List Char) : List Char := s.dropWhile isBlank

/-- A character that may stand in comments and strings: no control character but the tab. -/
def isPrintable (c : Char) : Bool := c = '\t' || (32 ≤ c.toNat && c.toNat ≠ 127)

def skipComment : List Char → List Char
  | '#' :: rest => rest.dropWhile isPrintable
  | s => s

/-- The text after the rest of a line, in which there is a comment at most. -/
def lineEnd? (s : List Char) : Option (List Char) :=
  match skipComment (skipBlanks s) with
  | [] => some []
  | '\n' :: rest => some rest
  | _ => none

/-- Skips blanks, comments and the ends of lines; `fuel` bounds the lines. -/
def skipTrivia : Nat → List Char → List Char
  | 0, s => s
  | fuel + 1, s =>
    match skipComment (skipBlanks s) with
    | '\n' :: rest => skipTrivia fuel rest
    | rest => rest

-- ---------------------------------------------------------------------------
-- Escapes
-- ---------------------------------------------------------------------------

def escaped? : Char → Option Char
  | 'b' => some '\x08'
  | 'f' => some '\x0c'
  | 'n' => some '\n'
  | 'r' => some '\r'
  | 't' => some '\t'
  | '\x22' => some '\x22'
  | '\\' => some '\\'
  | _ => none

def coded? (digits : List Char) : Option Char := do
  let n ← (Text.Numeral.digits? 16 digits).map Text.Numeral.value
  if n < 0xD800 ∨ (0xE000 ≤ n ∧ n < 0x110000) then some (Char.ofNat n) else none

def escape? : List Char → Option (Char × List Char)
  | 'u' :: a :: b :: c :: d :: rest => (coded? [a, b, c, d]).map (·, rest)
  | 'U' :: a :: b :: c :: d :: e :: f :: g :: h :: rest =>
    (coded? [a, b, c, d, e, f, g, h]).map (·, rest)
  | 'u' :: _ => none
  | 'U' :: _ => none
  | c :: rest => (escaped? c).map (·, rest)
  | [] => none

/-- The text after the end of a line that is escaped, with all blanks and ends
of lines that follow. -/
def joined? (s : List Char) : Option (List Char) :=
  match skipBlanks s with
  | '\n' :: rest => some (rest.dropWhile fun c => isBlank c || c = '\n')
  | _ => none

-- ---------------------------------------------------------------------------
-- Strings
-- ---------------------------------------------------------------------------

structure Quoting where
  quote : Char
  escapes : Bool
  /-- Whether three quotes end the string, and lines may end in it. -/
  long : Bool

/-- What ends a string at a quote: the quotes that still belong to it, and
what follows. A long string may end in two quotes before the last three. -/
def Quoting.close? (q : Quoting) (rest : List Char) : Option (List Char × List Char) :=
  if q.long then
    let run := rest.takeWhile (· = q.quote)
    if run.length < 2 then none
    else
      let kept := run.length - 2
      let kept := if kept ≤ 2 then kept else 2
      some (List.replicate kept q.quote, rest.drop (kept + 2))
  else some ([], rest)

/-- The content of a string after its opening quotes, and what follows the
string; `fuel` bounds the pieces. -/
def content? (q : Quoting) : Nat → List Char → Option (List Char × List Char)
  | 0, _ => none
  | _ + 1, [] => none
  | fuel + 1, c :: rest =>
    let goOn := fun (cs : List Char) (rest : List Char) =>
      (content? q fuel rest).map fun (more, after) => (cs ++ more, after)
    if c = q.quote then
      match q.close? rest with
      | some found => some found
      | none => goOn [c] rest
    else if c = '\\' ∧ q.escapes then
      match escape? rest with
      | some (e, rest) => goOn [e] rest
      | none =>
        if q.long then
          match joined? rest with
          | some rest => goOn [] rest
          | none => none
        else none
    else if isPrintable c ∨ (c = '\n' ∧ q.long) then goOn [c] rest
    else none

/-- The string that a text begins with, if it begins with a quote. A line feed
right after three quotes does not count. -/
def string? (long : Bool) (s : List Char) : Option (String × List Char) :=
  match s with
  | q :: rest =>
    if q = '\x22' ∨ q = '\x27' then
      let isLong := long ∧ rest.take 2 = [q, q]
      let inside := if isLong then
          match rest.drop 2 with
          | '\n' :: first => first
          | first => first
        else rest
      let quoting : Quoting := { quote := q, escapes := q = '\x22', long := isLong }
      (content? quoting (inside.length + 1) inside).map fun (cs, after) =>
        (String.ofList cs, after)
    else none
  | [] => none

-- ---------------------------------------------------------------------------
-- Keys
-- ---------------------------------------------------------------------------

def isBare (c : Char) : Bool :=
  (48 ≤ c.toNat && c.toNat ≤ 57) || (65 ≤ c.toNat && c.toNat ≤ 90) ||
    (97 ≤ c.toNat && c.toNat ≤ 122) || c = '-' || c = '_'

def part? (s : List Char) : Option (String × List Char) :=
  match string? false s with
  | some found => some found
  | none =>
    let bare := s.takeWhile isBare
    if bare.isEmpty then none else some (String.ofList bare, s.dropWhile isBare)

/-- The parts of a key, with blanks around each; `fuel` bounds their number. -/
def parts? : Nat → List Char → Option (List String × List Char)
  | 0, _ => none
  | fuel + 1, s => do
    let (first, rest) ← part? (skipBlanks s)
    match skipBlanks rest with
    | '.' :: rest =>
      let (more, after) ← parts? fuel rest
      some (first :: more, after)
    | after => some ([first], after)

def partLimit : Nat := 79

/-- A key: the parts before the last, the last, and what follows. -/
def key? (s : List Char) : Option (List String × String × List Char) := do
  let (parts, rest) ← parts? partLimit s
  let last ← parts.getLast?
  some (parts.dropLast, last, rest)

end GuestControl.Toml
