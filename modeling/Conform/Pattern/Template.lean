import Conform.Pattern
import Conform.Value

/-!
Templates: values read as patterns. A scalar stands for itself, a record for its fields, and a
list of one item for lists of such items.
-/

namespace Conform

/-- Why a value is no template. -/
inductive TemplateError where
  /-- A list that has not exactly one item says nothing about the items of other lists. -/
  | itemCount (count : Nat)
  deriving DecidableEq, Repr

def TemplateError.message : TemplateError → String
  | .itemCount count =>
    "sequence template must contain exactly one element pattern, found " ++ toString count

mutual

/-- The pattern of a template. The first offending list in depth-first order is reported, with
fields taken in name order. -/
def Pattern.ofTemplate : Value → Except TemplateError Pattern
  | .scalar value => return .literal value
  | .list [element] => return .sequence (← Pattern.ofTemplate element)
  | .list items => throw (.itemCount items.length)
  | .record fields => return .object (← Pattern.ofTemplateFields fields)

def Pattern.ofTemplateFields {lower : Option String} :
    Fields Value lower → Except TemplateError (List (String × Pattern))
  | .nil => return []
  | .cons name _ value rest => do
    let field ← Pattern.ofTemplate value
    let fields ← Pattern.ofTemplateFields rest
    return (name, field) :: fields

end

end Conform
