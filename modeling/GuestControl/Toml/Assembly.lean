import GuestControl.Toml.Basic

/-!
# Putting documents together

A document is a list of sections: lines before any header, and lines after
each header. A table has one header at most, a key one value, and a table
written in braces takes nothing more. `document?` refuses anything else.
-/

namespace GuestControl.Toml

/-- A key and its value; the last part of the key is apart from the others. -/
structure Line where
  path : List String
  key : String
  value : Tree

inductive Header where
  /-- No header: the document itself. -/
  | root
  | table (path : List String) (key : String)
  /-- One more of the tables of one name. -/
  | oneMore (path : List String) (key : String)

structure Section where
  header : Header
  lines : List Line

def changeLast {α : Type} (f : α → Option α) : List α → Option (List α)
  | [] => none
  | [a] => (f a).map ([·])
  | a :: b :: rest => (changeLast f (b :: rest)).map (a :: ·)

-- ---------------------------------------------------------------------------
-- Lines
-- ---------------------------------------------------------------------------

/-- Puts a value under a dotted key. The table that gets the value must be one
that dotted keys have made, or the one where the path begins. -/
def assign (key : String) (value : Tree) : List String → Members → Option Members
  | [], ms => if (ms.lookup key).isSome then none else some (ms ++ [(key, value)])
  | k :: path, ms =>
    match ms.lookup k with
    | none => (assign key value path []).map fun inner => ms ++ [(k, .table .dotted inner)]
    | some (.table origin inner) =>
      if origin = .dotted ∨ (origin = .passage ∧ !path.isEmpty) then
        (assign key value path inner).map fun inner => Members.put k (.table origin inner) ms
      else none
    | some (.tables items) =>
      if path.isEmpty then none
      else (changeLast (assign key value path) items).map fun items =>
        Members.put k (.tables items) ms
    | some _ => none

/-- Puts the lines of a section, or of a table in braces, into its members. -/
def fill (lines : List Line) (ms : Members) : Option Members :=
  lines.foldlM (fun ms l => assign l.key l.value l.path ms) ms

-- ---------------------------------------------------------------------------
-- Sections
-- ---------------------------------------------------------------------------

/-- Changes what stands under a key at the end of a path. Tables on the way are
made if they are missing; of repeated tables the last is taken. -/
def alter (key : String) (change : Option Tree → Option Tree) :
    List String → Members → Option Members
  | [], ms => (change (ms.lookup key)).map fun t => Members.put key t ms
  | k :: path, ms =>
    match ms.lookup k with
    | none =>
      (alter key change path []).map fun inner => Members.put k (.table .passage inner) ms
    | some (.table .inline _) => none
    | some (.table origin inner) =>
      (alter key change path inner).map fun inner => Members.put k (.table origin inner) ms
    | some (.tables items) =>
      (changeLast (alter key change path) items).map fun items =>
        Members.put k (.tables items) ms
    | some _ => none

/-- A table gets its header, at most once. -/
def openTable (lines : List Line) : Option Tree → Option Tree
  | none => (fill lines []).map (.table .header)
  | some (.table .passage ms) => (fill lines ms).map (.table .header)
  | some _ => none

def openOneMore (lines : List Line) : Option Tree → Option Tree
  | none => (fill lines []).map fun ms => .tables [ms]
  | some (.tables items) => (fill lines []).map fun ms => .tables (items ++ [ms])
  | some _ => none

def addSection (ms : Members) (s : Section) : Option Members :=
  match s.header with
  | .root => fill s.lines ms
  | .table path key => alter key (openTable s.lines) path ms
  | .oneMore path key => alter key (openOneMore s.lines) path ms

def document? (sections : List Section) : Option Members := sections.foldlM addSection []

end GuestControl.Toml
