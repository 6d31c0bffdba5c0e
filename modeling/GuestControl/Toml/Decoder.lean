import GuestControl.Toml.Basic
import GuestControl.Word

/-!
# Reading settings from documents

A structure is read from a table by a table of fields: a member that is
missing leaves the field at its default, a member without a field is
ignored, and a member that does not fit its field fails the whole. An array
stands for a structure by giving the fields in their order.
-/

namespace GuestControl.Toml

abbrev Decoder (α : Type) := Tree → Option α

structure Field (σ : Type) where
  key : String
  put : σ → Tree → Option σ

def Field.of {σ α : Type} (key : String) (decoder : Decoder α) (set : σ → α → σ) : Field σ :=
  { key := key, put := fun s t => (decoder t).map (set s) }

namespace Decoder

def string : Decoder String
  | .string s => some s
  | _ => none

def natural {α : Type} (hold? : Nat → Option α) : Decoder α
  | .integer i => (Word.nat? i.toInt).bind hold?
  | _ => none

def uint16 : Decoder UInt16 := natural Word.uint16?

def uint64 : Decoder UInt64 := natural Word.uint64?

def members {σ : Type} (fields : List (Field σ)) (initial : σ) (ms : Members) : Option σ :=
  fields.foldlM (fun s f =>
    match ms.lookup f.key with
    | none => some s
    | some t => f.put s t) initial

/-- Reads items into the fields in their order, as far as there are both. -/
def items {σ : Type} (s : σ) : List (Field σ) → List Tree → Option σ
  | f :: fs, t :: ts => (f.put s t).bind fun s => items s fs ts
  | _, _ => some s

/-- A structure, beginning with what it holds where nothing is given. A date
or time stands for one without any known member. -/
def struct {σ : Type} (fields : List (Field σ)) (initial : σ) : Decoder σ
  | .table _ ms => members fields initial ms
  | .array ts => items initial fields ts
  | .tables ts => items initial fields (ts.map (.table .header))
  | .moment => some initial
  | _ => none

end Decoder

end GuestControl.Toml
