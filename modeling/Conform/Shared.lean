import Conform.Blueprint
import Conform.Shared.Node

/-!
Shared values: values whose nodes can be told apart. Every node bears the stamp it was made with.
A copy keeps the stamps, so it is the same node again, while a node that is made anew gets a
stamp that no earlier node has.
-/

namespace Conform

/-- A node together with its content. The content is put together when the node is, so that it is
at hand and its parts are shared like those of the node. -/
structure Shared where
  node : Node
  content : Value
  content_eq : content = node.content

instance : Inhabited Shared := ⟨⟨.scalar 0 .null, .null, rfl⟩⟩

instance : Inspectable Shared := ⟨Shared.content⟩

/-- Computations that make nodes. The state is the next stamp. -/
abbrev Mint := StateM Nat

def Mint.stamp : Mint Nat :=
  modifyGet fun next => (next, next + 1)

namespace Shared

def kind (value : Shared) : Kind :=
  value.content.kind

def mintScalar (value : Scalar) : Mint Shared := do
  return ⟨.scalar (← Mint.stamp) value, .scalar value, rfl⟩

def mintList (items : List Shared) : Mint Shared := do
  return {
    node := .list (← Mint.stamp) (items.map node)
    content := .list (items.map content)
    content_eq := by
      rw [Node.content_list, List.map_map]
      exact congrArg Value.list (List.map_congr_left fun item _ => item.content_eq) }

def mintRecord (pairs : List (String × Shared)) : Mint Shared := do
  let fields := Fields.ofList pairs
  return {
    node := .record (← Mint.stamp) (fields.map node)
    content := .record (fields.map content)
    content_eq := by
      rw [Node.content_record, Fields.map_map, funext content_eq] }

def null : Mint Shared :=
  mintScalar .null

/-- Strict equality: scalars by content, lists and records by identity. -/
def strictEqual (value other : Shared) : Bool :=
  value.node.strictEqual other.node

/-- Whether two strings, two lists or two records are the same node. -/
def sameNode? (value other : Shared) : Option Bool :=
  value.node.same? other.node

def item? (value : Shared) (index : Nat) : Option Shared :=
  match value with
  | ⟨.list stamp nodes, .list contents, same⟩ =>
    match here : nodes[index]?, there : contents[index]? with
    | some node, some content => some {
        node, content
        content_eq := by
          rw [Node.content_list] at same
          injection same with same
          simpa [same, here] using there.symm }
    | _, _ => none
  | _ => none

/-- The content of an item is the item of the content. -/
theorem content_item? (value : Shared) (index : Nat) :
    (value.item? index).map content = value.content.items?.bind fun items => items[index]? := by
  obtain ⟨node, content, same⟩ := value
  cases node with
  | list stamp nodes =>
    rw [Node.content_list] at same
    subst same
    simp only [item?, Value.items?, Option.bind_some, List.getElem?_map]
    split
    · rename_i there
      simpa using there.symm
    · rename_i absent
      cases here : nodes[index]? with
      | none => rfl
      | some node => exact (absent node node.content here (by simp [here])).elim
  | scalar stamp value => rw [Node.content] at same; subst same; rfl
  | record stamp fields => rw [Node.content_record] at same; subst same; rfl

def field? (value : Shared) (name : String) : Option Shared :=
  match value with
  | ⟨.record stamp nodes, .record contents, same⟩ =>
    match here : nodes.find? name, there : contents.find? name with
    | some node, some content => some {
        node, content
        content_eq := by
          rw [Node.content_record] at same
          injection same with same
          simpa [same, here] using there.symm }
    | _, _ => none
  | _ => none

/-- The content of a field is the field of the content. -/
theorem content_field? (value : Shared) (name : String) :
    (value.field? name).map content = value.content.field? name := by
  obtain ⟨node, content, same⟩ := value
  cases node with
  | record stamp nodes =>
    rw [Node.content_record] at same
    subst same
    simp only [field?, Value.field?, Value.fields?, Option.bind_some, Fields.find?_map]
    split
    · rename_i there
      simpa using there.symm
    · rename_i absent
      cases here : nodes.find? name with
      | none => rfl
      | some node => exact (absent node node.content here (by simp [here])).elim
  | scalar stamp value => rw [Node.content] at same; subst same; rfl
  | list stamp items => rw [Node.content_list] at same; subst same; rfl

/-- The length of a string in UTF-8 bytes, the number of items of a list or of fields of a
record. -/
def length? (value : Shared) : Option Nat :=
  match value.content with
  | .scalar (.string text) => some text.utf8ByteSize
  | .scalar _ => none
  | .list items => some items.length
  | .record fields => some fields.size

end Shared

mutual

/-- Makes every node of a blueprint once, parts before wholes. A repeated item is one node that
occurs several times. -/
def Blueprint.build : Blueprint → Mint Shared
  | .scalar value => Shared.mintScalar value
  | .list items => do Shared.mintList (← Blueprint.buildItems items)
  | .record pairs => do Shared.mintRecord (← Blueprint.buildPairs pairs)
  | .repeated count item => do Shared.mintList (List.replicate count (← item.build))

def Blueprint.buildItems : List Blueprint → Mint (List Shared)
  | [] => pure []
  | item :: items => do
    let first ← item.build
    let rest ← Blueprint.buildItems items
    return first :: rest

def Blueprint.buildPairs : List (String × Blueprint) → Mint (List (String × Shared))
  | [] => pure []
  | (name, part) :: pairs => do
    let first ← part.build
    let rest ← Blueprint.buildPairs pairs
    return (name, first) :: rest

end

mutual

/-- The blueprint that makes a value with all its nodes distinct. -/
def Value.blueprint : Value → Blueprint
  | .scalar value => .scalar value
  | .list items => .list (Value.itemBlueprints items)
  | .record fields => .record (Value.fieldBlueprints fields)

def Value.itemBlueprints : List Value → List Blueprint
  | [] => []
  | item :: items => item.blueprint :: Value.itemBlueprints items

def Value.fieldBlueprints {lower : Option String} :
    Fields Value lower → List (String × Blueprint)
  | .nil => []
  | .cons name _ value rest => (name, value.blueprint) :: Value.fieldBlueprints rest

end

/-- A shared value with the content of a value and all its nodes new. -/
def Shared.ofValue (value : Value) : Mint Shared :=
  value.blueprint.build

end Conform
