import Conform.Path
import Conform.Pattern

/-!
Which values a pattern accepts. The decision is total; a shape that the pattern does not expect
is simply not accepted.
-/

namespace Conform

/-- Strict equality of a literal and a value; lists and records equal no literal. -/
def Scalar.equalsValue (literal : Scalar) : Value → Bool
  | .scalar value => literal.equal value
  | _ => false

mutual

/-- Markers accept their kind, sequences a list of accepted items, literals what they equal, and
objects a record or list in which every declared field is present and accepted. -/
def Pattern.accepts : Pattern → Value → Bool
  | .anyString, value => value.kind == .string
  | .anyBoolean, value => value.kind == .boolean
  | .anyNumber, value => value.number?.any fun n => !n.isNaN
  | .sequence element, .list items => items.all fun item => element.accepts item
  | .sequence _, _ => false
  | .literal expected, value => expected.equalsValue value
  | .object fields, value => !value.isPrimitive && Pattern.acceptsFields fields value
  | .undefined, _ => false

def Pattern.acceptsFields : List (String × Pattern) → Value → Bool
  | [], _ => true
  | (name, field) :: fields, value =>
    !field.isUndefined && (value.member? name).any (fun part => field.accepts part)
      && Pattern.acceptsFields fields value

end

end Conform
