import GuestControl.Binary64

/-!
# TOML documents

The tree of a TOML document. A table remembers how it came about, because
that decides whether later lines may add to it. Dates and times are told
apart from other values, but what moment they name is not kept.
-/

namespace GuestControl.Toml

/-- How a table came about. -/
inductive Origin where
  /-- By its own header, or as the document itself. -/
  | header
  /-- On the way to a table with a longer header. -/
  | passage
  /-- On the way to a dotted key. -/
  | dotted
  /-- Written in braces, and complete since. -/
  | inline
  deriving DecidableEq, Repr

inductive Tree where
  | string (s : String)
  | integer (i : Int64)
  | float (x : Binary64)
  | bool (b : Bool)
  | moment
  | array (items : List Tree)
  | table (origin : Origin) (members : List (String × Tree))
  /-- Tables with repeated headers; lines are added to the last one. -/
  | tables (items : List (List (String × Tree)))
  deriving Inhabited

abbrev Members := List (String × Tree)

namespace Members

/-- Puts a tree in the place of the one under a key, or at the end. -/
def put (key : String) (t : Tree) : Members → Members
  | [] => [(key, t)]
  | (k, old) :: rest => if k = key then (key, t) :: rest else (k, old) :: put key t rest

theorem lookup_put_self (key : String) (t : Tree) (ms : Members) :
    (put key t ms).lookup key = some t := by
  induction ms with
  | nil => simp [put]
  | cons m rest ih =>
    obtain ⟨k, old⟩ := m
    simp only [put]
    split
    · simp
    · rename_i h
      have hk : (key == k) = false := by simpa using Ne.symm h
      simp [List.lookup_cons, hk, ih]

theorem lookup_put_of_ne {key key' : String} (t : Tree) (ms : Members) (h : key' ≠ key) :
    (put key t ms).lookup key' = ms.lookup key' := by
  have hk : (key' == key) = false := by simpa using h
  induction ms with
  | nil => simp [put, List.lookup_cons, hk]
  | cons m rest ih =>
    obtain ⟨k, old⟩ := m
    simp only [put]
    split
    · rename_i he
      subst he
      simp [List.lookup_cons, hk]
    · simp only [List.lookup_cons, ih]

end Members

end GuestControl.Toml
