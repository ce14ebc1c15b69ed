import Conform.Fields
import Conform.Scalar

/-!
Values: tree-shaped data made of scalars, lists and records. A value is its content; two values
with the same content are the same value.
-/

namespace Conform

inductive Value where
  | scalar (value : Scalar)
  | list (items : List Value)
  | record (fields : Fields Value none)

/-- A record by its fields; of several values for one name the last is kept. -/
def Value.ofPairs (pairs : List (String × Value)) : Value :=
  .record (.ofList pairs)

/-- What can be looked into as a value, whatever else it carries. -/
class Inspectable (ι : Type) where
  content : ι → Value

instance : Inspectable Value := ⟨id⟩

instance : Inhabited Value := ⟨.scalar .null⟩

namespace Value

def null : Value :=
  .scalar .null

def boolean (value : Bool) : Value :=
  .scalar (.boolean value)

def number (value : Binary64) : Value :=
  .scalar (.number value)

def string (value : String) : Value :=
  .scalar (.string value)

def ofInt (n : Int) : Value :=
  .scalar (.ofInt n)

def kind : Value → Kind
  | .scalar value => value.kind
  | .list _ => .list
  | .record _ => .record

/-- Scalars are compared by content wherever lists and records are compared by identity. -/
def isPrimitive : Value → Bool
  | .scalar _ => true
  | _ => false

def scalar? : Value → Option Scalar
  | .scalar value => some value
  | _ => none

def boolean? : Value → Option Bool
  | .scalar (.boolean value) => some value
  | _ => none

def number? : Value → Option Binary64
  | .scalar (.number value) => some value
  | _ => none

def string? : Value → Option String
  | .scalar (.string value) => some value
  | _ => none

def items? : Value → Option (List Value)
  | .list items => some items
  | _ => none

def fields? : Value → Option (Fields Value none)
  | .record fields => some fields
  | _ => none

/-- The field of a record; other values have no fields. -/
def field? (value : Value) (name : String) : Option Value :=
  value.fields?.bind fun fields => fields.find? name

end Value

mutual

/-- Equality of content, with numeric equality on numbers: a value that holds no number in some
place differs from itself. -/
def Value.equal : Value → Value → Bool
  | .scalar a, .scalar b => a.equal b
  | .list items, .list others => Value.equalItems items others
  | .record fields, .record others => Value.equalFields fields others
  | _, _ => false

def Value.equalItems : List Value → List Value → Bool
  | [], [] => true
  | item :: items, other :: others => item.equal other && Value.equalItems items others
  | _, _ => false

/-- Records are equal when they have the same names and equal values under them. -/
def Value.equalFields {lower upper : Option String} :
    Fields Value lower → Fields Value upper → Bool
  | .nil, .nil => true
  | .cons name _ value rest, .cons other _ counterpart others =>
    name == other && value.equal counterpart && Value.equalFields rest others
  | _, _ => false

end

end Conform
