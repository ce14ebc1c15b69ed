import Conform.Value

/-!
Nodes: values in which every part bears the stamp it was made with.
-/

namespace Conform

inductive Node where
  | scalar (stamp : Nat) (value : Scalar)
  | list (stamp : Nat) (items : List Node)
  | record (stamp : Nat) (fields : Fields Node none)

mutual

/-- The value that a node stands for, without the stamps. -/
def Node.content : Node → Value
  | .scalar _ value => .scalar value
  | .list _ items => .list (Node.itemContents items)
  | .record _ fields => .record (Node.fieldContents fields)

def Node.itemContents : List Node → List Value
  | [] => []
  | item :: items => item.content :: Node.itemContents items

def Node.fieldContents {lower : Option String} : Fields Node lower → Fields Value lower
  | .nil => .nil
  | .cons name above value rest => .cons name above value.content (Node.fieldContents rest)

end

namespace Node

theorem itemContents_eq_map (items : List Node) : itemContents items = items.map content := by
  induction items with
  | nil => rfl
  | cons item items ih => rw [itemContents, ih, List.map_cons]

theorem fieldContents_eq_map {lower : Option String} (fields : Fields Node lower) :
    fieldContents fields = fields.map content := by
  induction fields with
  | nil => rfl
  | cons name above value rest ih => rw [fieldContents, ih, Fields.map]

theorem content_list (stamp : Nat) (items : List Node) :
    (list stamp items).content = .list (items.map content) := by
  rw [content, itemContents_eq_map]

theorem content_record (stamp : Nat) (fields : Fields Node none) :
    (record stamp fields).content = .record (fields.map content) := by
  rw [content, fieldContents_eq_map]

def stamp : Node → Nat
  | .scalar stamp _ => stamp
  | .list stamp _ => stamp
  | .record stamp _ => stamp

/-- Strict equality: scalars by content, lists and records by identity. -/
def strictEqual : Node → Node → Bool
  | .scalar _ a, .scalar _ b => a.equal b
  | .list a _, .list b _ => a == b
  | .record a _, .record b _ => a == b
  | _, _ => false

/-- Whether two strings, two lists or two records are the same node. Other pairs have no answer:
null, booleans and numbers have no identity. -/
def same? : Node → Node → Option Bool
  | .scalar a (.string _), .scalar b (.string _) => some (a == b)
  | .list a _, .list b _ => some (a == b)
  | .record a _, .record b _ => some (a == b)
  | _, _ => none

end Node

end Conform
