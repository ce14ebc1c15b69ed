import Conform.Path
import Conform.Pattern.Text
import Conform.Value.Text

/-!
Mismatches: the place at which a value is not what a pattern expects, and the reason.
-/

namespace Conform

inductive Reason where
  /-- A marker saw a value of another kind. -/
  | expectedKind (expected found : Kind)
  /-- The number marker saw what is no number. -/
  | notANumber
  /-- A literal saw a value that it does not equal. -/
  | notEqual (expected : Scalar) (found : Value)
  /-- A sequence saw something else than a list. -/
  | notASequence (found : Kind)
  /-- An object saw neither a record nor a list. -/
  | notARecord (found : Kind)
  /-- A declared field is absent. -/
  | missingField (name : String)
  /-- A field is declared undefined, which nothing satisfies. -/
  | undefinedField (name : String)
  /-- The pattern itself is undefined. -/
  | unsatisfiable

namespace Reason

def toText : Reason → String
  | .expectedKind expected found => "expected a " ++ expected.name ++ ", found a " ++ found.name
  | .notANumber => "expected a number, found NaN"
  | .notEqual expected found => "expected " ++ expected.toText ++ ", found " ++ found.toText
  | .notASequence found => "expected a list, found a " ++ found.name
  | .notARecord found => "expected a record or list, found a " ++ found.name
  | .missingField name => "missing field `" ++ name ++ "`"
  | .undefinedField name => "field `" ++ name ++ "` is declared undefined in the pattern"
  | .unsatisfiable => "pattern is undefined"

/-- Equality of reasons, with numeric equality on the numbers they quote. -/
def equal : Reason → Reason → Bool
  | .expectedKind expected found, .expectedKind otherExpected otherFound =>
    expected == otherExpected && found == otherFound
  | .notANumber, .notANumber => true
  | .notEqual expected found, .notEqual otherExpected otherFound =>
    expected.equal otherExpected && found.equal otherFound
  | .notASequence found, .notASequence otherFound => found == otherFound
  | .notARecord found, .notARecord otherFound => found == otherFound
  | .missingField name, .missingField other => name == other
  | .undefinedField name, .undefinedField other => name == other
  | .unsatisfiable, .unsatisfiable => true
  | _, _ => false

end Reason

structure Mismatch where
  path : Path
  reason : Reason

namespace Mismatch

def toText (mismatch : Mismatch) : String :=
  "at " ++ mismatch.path.toText ++ ": " ++ mismatch.reason.toText

def equal (mismatch other : Mismatch) : Bool :=
  mismatch.path == other.path && mismatch.reason.equal other.reason

end Mismatch

end Conform
