import Conform.DataType
import Conform.Script.Effect

/-!
Scripted closures: guards and transforms described by data, and the functions they stand for.
-/

namespace Conform.Script

/-- A result is a value, or the error of a conversion. -/
abbrev Result := Except ConversionError Shared

abbrev ScriptSession := Session Run Shared Result

/-- What a transform does with its input. -/
inductive Action where
  /-- Gives one value, made once and shared by all calls. -/
  | const (blueprint : Blueprint)
  /-- Gives the input itself. -/
  | self
  /-- Gives a field of the input, or null. -/
  | field (name : String)
  /-- Gives an item of the input, or null. -/
  | item (index : Nat)
  /-- Gives a list that holds the input. -/
  | wrap
  /-- Gives the text of the input. -/
  | text
  /-- Gives the name of the kind of the input. -/
  | kindName
  /-- Gives the number of calls so far, this one included. -/
  | count
  /-- Reads the input as a type and gives the data as a value. -/
  | decode (type : DataType)
  /-- Gives up with a text. -/
  | abort (text : String)
  /-- Evaluates the session that has the name when the closure is made, or gives null. -/
  | session (name : String)

structure Expression where
  label : String
  action : Action

/-- What a guard asks of its input. -/
inductive Test where
  | const (answer : Bool)
  | kindName (name : String)
  | greater (bound : Binary64)
  | hasField (name : String)
  | accepted (pattern : Pattern)
  /-- Alternates between the answers from call to call. -/
  | toggle (first : Bool)
  /-- Gives up with a text. -/
  | abort (text : String)

structure Guard where
  label : String
  test : Test

/-- Named sessions. -/
abbrev Sessions := Fields ScriptSession none

private def orNull (found : Option Shared) : Run Result := do
  match found with
  | some value => return .ok value
  | none => return .ok (← mint Shared.null)

private def give (value : Value) : Run Result := do
  return .ok (← mint (Shared.ofValue value))

/-- The function of an action. Making it makes the constant and the counter that its calls share,
and looks up the session that its calls evaluate. -/
def Action.closure (sessions : Sessions) : Action → Setup (Shared → Run Result)
  | .const blueprint => do
    let value ← mint blueprint.build
    return fun _ => return .ok value
  | .self => return fun input => return .ok input
  | .field name => return fun input => orNull (input.field? name)
  | .item index => return fun input => orNull (input.item? index)
  | .wrap => return fun input => do return .ok (← mint (Shared.mintList [input]))
  | .text => return fun input => give (.string input.content.toText)
  | .kindName => return fun input => give (.string input.kind.name)
  | .count => do
    let counter ← newCounter
    return fun _ => do give (.ofInt ((← tick counter) + 1 : Nat))
  | .decode type => return fun input =>
    match type.recode input.content with
    | .ok value => give value
    | .error error => return .error error
  | .abort message => return fun _ => throw ⟨message⟩
  | .session name => do
    let some named := sessions.find? name | failure
    return fun _ => do
      match ← named.evaluate with
      | some result => return result
      | none => orNull none

/-- The function of an expression, which logs its calls. -/
def Expression.closure (sessions : Sessions) (expression : Expression) :
    Setup (Shared → Run Result) := do
  let closure ← expression.action.closure sessions
  return fun input => do
    called expression.label
    closure input

/-- The function of a test. Making it makes the counter that its calls share. -/
def Test.closure : Test → Setup (Shared → Run Bool)
  | .const answer => return fun _ => return answer
  | .kindName name => return fun input => return input.kind.name == name
  | .greater bound => return fun input => return input.content.number?.any bound.less
  | .hasField name => return fun input => return (input.field? name).isSome
  | .accepted pattern => return fun input => return pattern.accepts input.content
  | .toggle first => do
    let counter ← newCounter
    return fun _ => return first == ((← tick counter) % 2 == 0)
  | .abort message => return fun _ => throw ⟨message⟩

/-- The function of a guard, which logs its calls. -/
def Guard.closure (guard : Guard) : Setup (Shared → Run Bool) := do
  let test ← guard.test.closure
  return fun input => do
    called guard.label
    test input

/-- The transform of typed data: logs the call and turns the data back into a value. -/
def typedTransform (label : String) (type : DataType) (data : type.Carrier) : Run Shared := do
  called label
  match Value.ofData data with
  | .ok value => mint (Shared.ofValue value)
  | .error error => throw ⟨error.message⟩

end Conform.Script
