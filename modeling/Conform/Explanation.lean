import Conform.Acceptance
import Conform.Mismatch

/-!
Explanations: the first place at which a value is not what a pattern expects.

The walk keeps a trail of the steps taken, the last one first. A step is put on the trail before a
part is entered and taken off when nothing was wrong there; at a mismatch the trail stays.
-/

namespace Conform

abbrev Trail := List Segment

namespace Explanation

def expectKind (value : Value) (expected : Kind) : Option Reason :=
  if value.kind = expected then none else some (.expectedKind expected value.kind)

def expectNumber (value : Value) : Option Reason :=
  match value with
  | .scalar (.number n) => if n.isNaN then some .notANumber else none
  | _ => some (.expectedKind .number value.kind)

def expectLiteral (literal : Scalar) (value : Value) : Option Reason :=
  if literal.equalsValue value then none else some (.notEqual literal value)

/-- Enters a part and comes back to where the trail was, unless something is wrong there. -/
def inside (segment : Segment) (walk : Trail → Option Reason × Trail) (trail : Trail) :
    Option Reason × Trail :=
  match walk (segment :: trail) with
  | (some reason, left) => (some reason, left)
  | (none, left) => (none, left.tail)

/-- Looks into the items of a list from a position on, until something is wrong. -/
def walkItems (walk : Value → Trail → Option Reason × Trail) :
    Nat → List Value → Trail → Option Reason × Trail
  | _, [], trail => (none, trail)
  | position, item :: items, trail =>
    match inside (.index position) (walk item) trail with
    | (some reason, left) => (some reason, left)
    | (none, left) => walkItems walk (position + 1) items left

end Explanation

open Explanation

mutual

/-- Looks for the first thing that is wrong in a value that the trail leads to. -/
def Pattern.walk : Pattern → Value → Trail → Option Reason × Trail
  | .anyString, value, trail => (expectKind value .string, trail)
  | .anyBoolean, value, trail => (expectKind value .boolean, trail)
  | .anyNumber, value, trail => (expectNumber value, trail)
  | .sequence element, .list items, trail =>
    walkItems (fun item trail => element.walk item trail) 0 items trail
  | .sequence _, value, trail => (some (.notASequence value.kind), trail)
  | .literal expected, value, trail => (expectLiteral expected value, trail)
  | .object fields, value, trail =>
    if value.isPrimitive then (some (.notARecord value.kind), trail)
    else Pattern.walkFields fields value trail
  | .undefined, _, trail => (some .unsatisfiable, trail)

/-- Looks into the declared fields in the order of their declaration. -/
def Pattern.walkFields : List (String × Pattern) → Value → Trail → Option Reason × Trail
  | [], _, trail => (none, trail)
  | (name, field) :: fields, value, trail =>
    if field.isUndefined then (some (.undefinedField name), trail)
    else
      match value.member? name with
      | none => (some (.missingField name), trail)
      | some part =>
        match inside (value.segment name) (fun trail => field.walk part trail) trail with
        | (some reason, left) => (some reason, left)
        | (none, left) => Pattern.walkFields fields value left

end

/-- The first mismatch of a value, with list items taken in order and fields in the order of
their declaration. -/
def Pattern.explain (pattern : Pattern) (value : Value) : Option Mismatch :=
  match pattern.walk value [] with
  | (some reason, trail) => some ⟨⟨trail.reverse⟩, reason⟩
  | (none, _) => none

end Conform
