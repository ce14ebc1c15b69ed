import Conform.Value

/-!
Blueprints: how a value is put together from parts. Several blueprints make the same value, since
the order of a record's pairs is not kept and neither are pairs that are overwritten.
-/

namespace Conform

inductive Blueprint where
  | scalar (value : Scalar)
  | list (items : List Blueprint)
  /-- A record from pairs; of several pairs for one name the last counts. -/
  | record (pairs : List (String × Blueprint))
  /-- A list that holds one item a number of times. -/
  | repeated (count : Nat) (item : Blueprint)

instance : Inhabited Blueprint := ⟨.scalar .null⟩

mutual

def Blueprint.content : Blueprint → Value
  | .scalar value => .scalar value
  | .list items => .list (Blueprint.itemContents items)
  | .record pairs => .ofPairs (Blueprint.pairContents pairs)
  | .repeated count item => .list (List.replicate count item.content)

def Blueprint.itemContents : List Blueprint → List Value
  | [] => []
  | item :: items => item.content :: Blueprint.itemContents items

def Blueprint.pairContents : List (String × Blueprint) → List (String × Value)
  | [] => []
  | (name, part) :: pairs => (name, part.content) :: Blueprint.pairContents pairs

end

instance : Inspectable Blueprint := ⟨Blueprint.content⟩

end Conform
