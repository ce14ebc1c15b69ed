import Conform.Text.Numeral
import Conform.Value

/-!
Paths into values: the steps by which a part is reached, and the names under which the items of a
list can be reached like fields.
-/

namespace Conform

/-- A step from a value to one of its parts. -/
inductive Segment where
  | field (name : String)
  | index (position : Nat)
  deriving DecidableEq, Repr

def Segment.toText : Segment → String
  | .field name => "." ++ name
  | .index position => "[" ++ toString position ++ "]"

/-- The place of a part, from the whole on. -/
structure Path where
  segments : List Segment
  deriving DecidableEq, Repr

namespace Path

def isRoot (path : Path) : Bool :=
  path.segments.isEmpty

def toText (path : Path) : String :=
  "$" ++ String.join (path.segments.map Segment.toText)

end Path

/-- The position that a name stands for. A name is a position only in its one canonical spelling,
and positions are 64 bits wide. -/
def position? (name : String) : Option Nat :=
  (Text.readCount? name.toList).filter (toString · = name)

namespace Value

/-- The part of a value that a name stands for: a field of a record, or an item of a list under
its position. -/
def member? (value : Value) (name : String) : Option Value :=
  match value with
  | .record fields => fields.find? name
  | .list items => (position? name).bind fun position => items[position]?
  | .scalar _ => none

/-- The step to the part that a name stands for. Names step to items of lists and to fields of
everything else. -/
def segment (value : Value) (name : String) : Segment :=
  match value, position? name with
  | .list _, some position => .index position
  | _, _ => .field name

/-- The part one step away. -/
def step? (value : Value) : Segment → Option Value
  | .field name =>
    match value with
    | .record fields => fields.find? name
    | _ => none
  | .index position =>
    match value with
    | .list items => items[position]?
    | _ => none

/-- The part at the end of a path. -/
def at? (value : Value) (path : Path) : Option Value :=
  path.segments.foldlM step? value

end Value

end Conform
