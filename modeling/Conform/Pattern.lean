import Conform.Scalar

/-!
Patterns: descriptions of the shape that a value is expected to have.
-/

namespace Conform

inductive Pattern where
  | anyString
  /-- Every number, but not what is no number. -/
  | anyNumber
  | anyBoolean
  /-- Exactly this scalar. -/
  | literal (value : Scalar)
  /-- A list all of whose items have one shape. -/
  | sequence (element : Pattern)
  /-- A record or list with at least these fields, in the order of their declaration. A name may
  be declared several times. -/
  | object (fields : List (String × Pattern))
  /-- A shape that nothing has. A field declared so makes the whole object unsatisfiable, which
  a field that is left out does not. -/
  | undefined

namespace Pattern

instance : Inhabited Pattern := ⟨.undefined⟩

def null : Pattern :=
  .literal .null

def boolean (value : Bool) : Pattern :=
  .literal (.boolean value)

def number (value : Binary64) : Pattern :=
  .literal (.number value)

def string (value : String) : Pattern :=
  .literal (.string value)

def ofInt (n : Int) : Pattern :=
  .literal (.ofInt n)

def isUndefined : Pattern → Bool
  | .undefined => true
  | _ => false

end Pattern

mutual

/-- Equality of patterns, with numeric equality on literals. The order of declarations counts. -/
def Pattern.equal : Pattern → Pattern → Bool
  | .anyString, .anyString => true
  | .anyNumber, .anyNumber => true
  | .anyBoolean, .anyBoolean => true
  | .literal a, .literal b => a.equal b
  | .sequence element, .sequence other => element.equal other
  | .object fields, .object others => Pattern.equalFields fields others
  | .undefined, .undefined => true
  | _, _ => false

def Pattern.equalFields : List (String × Pattern) → List (String × Pattern) → Bool
  | [], [] => true
  | (name, field) :: fields, (other, counterpart) :: others =>
    name == other && field.equal counterpart && Pattern.equalFields fields others
  | _, _ => false

end

end Conform
