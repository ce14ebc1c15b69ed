import Conform.Json
import Conform.Proofs.Fields

/-!
Induction over values and documents, with a hypothesis for every item and for every field.
-/

namespace Conform

@[elab_as_elim, induction_eliminator]
theorem Value.induction {motive : Value → Prop} (scalar : ∀ value, motive (.scalar value))
    (list : ∀ items, (∀ item ∈ items, motive item) → motive (.list items))
    (record : ∀ fields, (∀ name part, fields.find? name = some part → motive part) →
      motive (.record fields)) (value : Value) : motive value := by
  refine @Value.rec motive (fun items => ∀ item ∈ items, motive item)
    (fun _ fields => ∀ name part, fields.find? name = some part → motive part)
    scalar list record ?noItem ?item ?noField ?field value
  case noItem =>
    intro item member
    cases member
  case item =>
    intro head tail own others
    exact List.forall_mem_cons.mpr ⟨own, others⟩
  case noField =>
    intro lower name part found
    cases found
  case field =>
    intro lower entry above current rest own others
    exact Fields.forall_find?_cons.mpr ⟨own, others⟩

@[elab_as_elim, induction_eliminator]
theorem Json.induction {motive : Json → Prop} (null : motive .null)
    (boolean : ∀ value, motive (.boolean value)) (number : ∀ value, motive (.number value))
    (string : ∀ value, motive (.string value))
    (array : ∀ items, (∀ item ∈ items, motive item) → motive (.array items))
    (object : ∀ fields, (∀ name part, fields.find? name = some part → motive part) →
      motive (.object fields)) (json : Json) : motive json := by
  refine @Json.rec motive (fun items => ∀ item ∈ items, motive item)
    (fun _ fields => ∀ name part, fields.find? name = some part → motive part)
    null boolean number string array object ?noItem ?item ?noField ?field json
  case noItem =>
    intro item member
    cases member
  case item =>
    intro head tail own others
    exact List.forall_mem_cons.mpr ⟨own, others⟩
  case noField =>
    intro lower name part found
    cases found
  case field =>
    intro lower entry above current rest own others
    exact Fields.forall_find?_cons.mpr ⟨own, others⟩

end Conform
