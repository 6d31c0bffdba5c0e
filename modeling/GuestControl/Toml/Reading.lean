import GuestControl.Toml.Assembly
import GuestControl.Toml.Scalar
import GuestControl.Toml.Strings

/-!
# Reading TOML text

Values, lines and sections by their grammar; `read?` reads a whole text into
the members of the document. Arrays and tables in braces are nested less than
80 deep.
-/

namespace GuestControl.Toml

/-- The room for nesting that a value is read with: one more than the nesting it may have. -/
def nestingLimit : Nat := 80

/-- A word, of which the first letter is read already. -/
def word? (letters : List Char) (t : Tree) (s : List Char) : Option (Tree × List Char) :=
  if s.take letters.length = letters then some (t, s.drop letters.length) else none

def skipLines (s : List Char) : List Char := skipTrivia s.length s

-- ---------------------------------------------------------------------------
-- Values
-- ---------------------------------------------------------------------------

mutual

/-- The value that a text begins with and what follows it; `fuel` bounds the recursion. -/
def value? : Nat → Nat → List Char → Option (Tree × List Char)
  | 0, _, _ => none
  | fuel + 1, room, s =>
    match s with
    | '[' :: rest =>
      if room ≤ 1 then none
      else (items? fuel (room - 1) (skipLines rest)).map fun (items, s) => (.array items, s)
    | '\x7b' :: rest =>
      if room ≤ 1 then none
      else
        match skipBlanks rest with
        | '\x7d' :: after => some (.table .inline [], after)
        | inside => do
          let (lines, after) ← lines? fuel (room - 1) inside
          some (.table .inline (← fill lines []), after)
    | 't' :: rest => word? ['r', 'u', 'e'] (.bool true) rest
    | 'f' :: rest => word? ['a', 'l', 's', 'e'] (.bool false) rest
    | s =>
      match string? true s with
      | some (text, after) => some (.string text, after)
      | none => (moment? s).orElse fun _ => number? s

/-- The items from here to the closing bracket. A comma may stand after the last. -/
def items? : Nat → Nat → List Char → Option (List Tree × List Char)
  | 0, _, _ => none
  | fuel + 1, room, s =>
    match s with
    | ']' :: after => some ([], after)
    | s => do
      let (t, rest) ← value? fuel room s
      match skipLines rest with
      | ',' :: rest =>
        let (ts, after) ← items? fuel room (skipLines rest)
        some (t :: ts, after)
      | ']' :: after => some ([t], after)
      | _ => none

/-- The keys with their values from here to the closing brace, all on one line. -/
def lines? : Nat → Nat → List Char → Option (List Line × List Char)
  | 0, _, _ => none
  | fuel + 1, room, s => do
    let (path, key, rest) ← key? s
    let (t, rest) ← value? fuel room (skipBlanks (← after? '=' rest))
    let line : Line := { path := path, key := key, value := t }
    match skipBlanks rest with
    | ',' :: rest =>
      let (more, after) ← lines? fuel room rest
      some (line :: more, after)
    | '\x7d' :: after => some ([line], after)
    | _ => none

end

def line? (s : List Char) : Option (Line × List Char) := do
  let (path, key, rest) ← key? s
  let inside := skipBlanks (← after? '=' rest)
  let (t, rest) ← value? (2 * inside.length + 2) nestingLimit inside
  some ({ path := path, key := key, value := t }, ← lineEnd? rest)

-- ---------------------------------------------------------------------------
-- Sections
-- ---------------------------------------------------------------------------

def header? : List Char → Option (Header × List Char)
  | '[' :: '[' :: rest => do
    let (path, key, rest) ← key? rest
    some (.oneMore path key, ← lineEnd? (← after? ']' (← after? ']' rest)))
  | '[' :: rest => do
    let (path, key, rest) ← key? rest
    some (.table path key, ← lineEnd? (← after? ']' rest))
  | _ => none

/-- The sections of a text, where lines so far belong to the header `h`;
`fuel` bounds the lines. -/
def sections? (h : Header) (lines : List Line) : Nat → List Char → Option (List Section)
  | 0, _ => none
  | fuel + 1, s =>
    match skipLines s with
    | [] => some [{ header := h, lines := lines }]
    | '[' :: rest => do
      let (next, rest) ← header? ('[' :: rest)
      let later ← sections? next [] fuel rest
      some ({ header := h, lines := lines } :: later)
    | s => do
      let (line, rest) ← line? s
      sections? h (lines ++ [line]) fuel rest

/-- The text without the mark that may stand before it. -/
def withoutMark : List Char → List Char
  | c :: rest => if c.toNat = 0xFEFF then rest else c :: rest
  | [] => []

def read? (text : String) : Option Members := do
  let s := lineFeeds (withoutMark text.toList)
  document? (← sections? .root [] (s.length + 1) s)

end GuestControl.Toml
