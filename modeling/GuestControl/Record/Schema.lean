import GuestControl.Error

/-!
# Reading records into objects

A schema is a table of fields: which member a field comes from and how its
value is put into the object. A member that is absent or null leaves the
field as it is in a new object; the first member, in the order of the table,
that does not convert fails the record.
-/

namespace GuestControl

structure Schema.Field (σ : Type) where
  name : String
  put : σ → Value → Except Mismatch σ

structure Schema (σ : Type) where
  blank : σ
  fields : List (Schema.Field σ)

namespace Schema

variable {σ : Type}

def Field.of {α : Type} (name : String) (convert : Value → Except Mismatch α)
    (set : σ → α → σ) : Field σ :=
  { name := name, put := fun s v => (convert v).map (set s) }

/-- The member, unless it is absent or null. -/
def given (r : Record) (name : String) : Option Value := (r.get? name).filter (!·.isNull)

def readInto (r : Record) : σ → List (Field σ) → Except Error σ
  | s, [] => .ok s
  | s, f :: fs =>
    match given r f.name with
    | none => readInto r s fs
    | some v =>
      match f.put s v with
      | .ok s => readInto r s fs
      | .error m => .error (.ofMismatch f.name m)

def read (schema : Schema σ) (r : Record) : Except Error σ := readInto r schema.blank schema.fields

/-- The objects of the records that can be read, in order. -/
def readAll (schema : Schema σ) (rs : List Record) : List σ :=
  rs.filterMap fun r => (schema.read r).toOption

end Schema

end GuestControl
