import Conform.Binary64.Text
import Conform.Text.Quoted

/-!
Scalars: the data without parts. They serve as the leaves of values and as the literals of
patterns.
-/

namespace Conform

/-- The kinds of data that a matcher tells apart. -/
inductive Kind where
  | null
  | boolean
  | number
  | string
  | list
  | record
  deriving DecidableEq, Repr

def Kind.name : Kind → String
  | .null => "null"
  | .boolean => "boolean"
  | .number => "number"
  | .string => "string"
  | .list => "list"
  | .record => "record"

inductive Scalar where
  | null
  | boolean (value : Bool)
  | number (value : Binary64)
  | string (value : String)
  deriving DecidableEq

namespace Scalar

def kind : Scalar → Kind
  | .null => .null
  | .boolean _ => .boolean
  | .number _ => .number
  | .string _ => .string

def ofInt (n : Int) : Scalar :=
  .number (.ofInt n)

/-- Equality of kind and content, with numeric equality on numbers. -/
def equal : Scalar → Scalar → Bool
  | .null, .null => true
  | .boolean a, .boolean b => a == b
  | .number a, .number b => a.equal b
  | .string a, .string b => a == b
  | _, _ => false

def toText : Scalar → String
  | .null => "null"
  | .boolean true => "true"
  | .boolean false => "false"
  | .number x => x.toText
  | .string text => Text.quote text

/-- The structural view, which names the kind. -/
def debugText : Scalar → String
  | .null => "Null"
  | .boolean true => "Bool(true)"
  | .boolean false => "Bool(false)"
  | .number x => "Number(" ++ x.debugText ++ ")"
  | .string text => "Str(" ++ Text.quote text ++ ")"

end Scalar

end Conform
