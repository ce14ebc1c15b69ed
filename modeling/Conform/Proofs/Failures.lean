import Conform.Explanation
import Conform.Proofs.Acceptance

/-!
The complete list of what is wrong with a value, and the walk that stops at its first entry.
-/

namespace Conform

/-- What is wrong with a whole. -/
def Mismatch.here (reason : Reason) : Mismatch :=
  ⟨⟨[]⟩, reason⟩

/-- What is wrong with a part, told of the whole. -/
def Mismatch.under (segment : Segment) (mismatch : Mismatch) : Mismatch :=
  ⟨⟨segment :: mismatch.path.segments⟩, mismatch.reason⟩

/-- What is wrong with a declared field: it is undefined, or absent, or wrong in itself. -/
def Pattern.fieldFailures (name : String) (field : Pattern) (own : Value → List Mismatch)
    (value : Value) : List Mismatch :=
  if field.isUndefined then [.here (.undefinedField name)]
  else match value.member? name with
    | none => [.here (.missingField name)]
    | some part => (own part).map (.under (value.segment name))

mutual

/-- All that is wrong with a value, from left to right. Nothing is passed over because of an
earlier failure. -/
def Pattern.failures : Pattern → Value → List Mismatch
  | .anyString, value =>
    if value.kind = .string then [] else [.here (.expectedKind .string value.kind)]
  | .anyBoolean, value =>
    if value.kind = .boolean then [] else [.here (.expectedKind .boolean value.kind)]
  | .anyNumber, .scalar (.number n) => if n.isNaN then [.here .notANumber] else []
  | .anyNumber, value => [.here (.expectedKind .number value.kind)]
  | .sequence element, .list items =>
    items.zipIdx.flatMap fun entry => (element.failures entry.1).map (.under (.index entry.2))
  | .sequence _, value => [.here (.notASequence value.kind)]
  | .literal expected, value =>
    if expected.equalsValue value then [] else [.here (.notEqual expected value)]
  | .object fields, value =>
    if value.isPrimitive then [.here (.notARecord value.kind)]
    else Pattern.failuresOfFields fields value
  | .undefined, _ => [.here .unsatisfiable]

/-- All that is wrong with the declared fields, in the order of their declaration. -/
def Pattern.failuresOfFields : List (String × Pattern) → Value → List Mismatch
  | [], _ => []
  | (name, field) :: fields, value =>
    Pattern.fieldFailures name field (fun part => field.failures part) value
      ++ Pattern.failuresOfFields fields value

end

namespace Explanation

variable {segment : Segment} {trail : Trail} {first : Option Mismatch}

/-- The answer of a walk that came along a trail and stops at a mismatch, if there is one. -/
def stop (trail : Trail) : Option Mismatch → Option Reason × Trail
  | some mismatch => (some mismatch.reason, mismatch.path.segments.reverse ++ trail)
  | none => (none, trail)

theorem inside_eq_stop {walk : Trail → Option Reason × Trail}
    (stops : ∀ trail, walk trail = stop trail first) :
    inside segment walk trail = stop trail (first.map (.under segment)) := by
  rw [inside, stops]
  cases first with
  | none => rfl
  | some mismatch => simp [stop, Mismatch.under]

theorem walkItems_eq_stop {walk : Value → Trail → Option Reason × Trail}
    {failures : Value → List Mismatch}
    (stops : ∀ item trail, walk item trail = stop trail (failures item).head?)
    (position : Nat) (items : List Value) :
    walkItems walk position items trail =
      stop trail ((items.zipIdx position).flatMap fun entry =>
        (failures entry.1).map (.under (.index entry.2))).head? := by
  induction items generalizing position trail with
  | nil => rfl
  | cons item items ih =>
    rw [walkItems, inside_eq_stop (stops item), List.zipIdx_cons, List.flatMap_cons,
      List.head?_append, List.head?_map]
    cases (failures item).head? with
    | none => exact ih (position + 1)
    | some mismatch => rfl

theorem check_eq_stop (passed : Prop) [Decidable passed] (reason : Reason) :
    (if passed then none else some reason, trail) =
      stop trail (if passed then [] else [Mismatch.here reason]).head? := by
  split <;> rfl

end Explanation

open Explanation

namespace Pattern

variable {pattern : Pattern} {value : Value} {trail : Trail}

theorem walkFields_eq_stop {fields : List (String × Pattern)}
    (stops : ∀ name field, (name, field) ∈ fields → ∀ value trail,
      field.walk value trail = stop trail (field.failures value).head?) :
    walkFields fields value trail = stop trail (failuresOfFields fields value).head? := by
  induction fields generalizing trail with
  | nil => rfl
  | cons entry fields ih =>
    obtain ⟨name, field⟩ := entry
    obtain ⟨own, others⟩ := forall_field_cons.mp stops
    rw [walkFields, failuresOfFields, fieldFailures]
    split
    · rfl
    · cases value.member? name with
      | none => rfl
      | some part =>
        simp only [inside_eq_stop (own part), List.head?_append, List.head?_map]
        cases (field.failures part).head? with
        | none => exact ih others
        | some mismatch => rfl

/-- The walk stops at the first failure, with the trail leading there, and comes back to where it
began if there is none. This holds for every trail, since a part is walked with the step to it put
on. -/
theorem walk_eq_stop (pattern : Pattern) (value : Value) (trail : Trail) :
    pattern.walk value trail = stop trail (pattern.failures value).head? := by
  induction pattern generalizing value trail with
  | anyString => exact check_eq_stop (value.kind = .string) _
  | anyBoolean => exact check_eq_stop (value.kind = .boolean) _
  | anyNumber =>
    cases value with
    | scalar value =>
      cases value with
      | number n =>
        simp only [walk, failures, expectNumber]
        split <;> rfl
      | null | boolean | string => rfl
    | list | record => rfl
  | literal expected => exact check_eq_stop (expected.equalsValue value = true) _
  | sequence element ih =>
    cases value with
    | list items => exact walkItems_eq_stop ih 0 items
    | scalar | record => rfl
  | object fields ih =>
    rw [walk, failures]
    split
    · rfl
    · exact walkFields_eq_stop ih
  | undefined => rfl

theorem explain_eq_head? : pattern.explain value = (pattern.failures value).head? := by
  rw [explain, walk_eq_stop]
  cases (pattern.failures value).head? with
  | none => rfl
  | some mismatch => simp [stop]

example : (object [("a", .undefined), ("b", .anyNumber), ("c", .sequence .anyString)]).failures
    (.ofPairs [("c", .list [.null, .string "d", .boolean true])]) =
      [.here (.undefinedField "a"), .here (.missingField "b"),
        ⟨⟨[.field "c", .index 0]⟩, .expectedKind .string .null⟩,
        ⟨⟨[.field "c", .index 2]⟩, .expectedKind .string .boolean⟩] := rfl

theorem failures_list_eq_nil_iff {element : Pattern} {items : List Value} :
    (sequence element).failures (.list items) = [] ↔
      ∀ item ∈ items, element.failures item = [] := by
  simp only [failures, List.flatMap_eq_nil_iff, List.map_eq_nil_iff]
  have entries := List.forall_mem_map (f := Prod.fst) (l := items.zipIdx)
    (P := fun item => element.failures item = [])
  rw [List.zipIdx_map_fst] at entries
  exact entries.symm

theorem fieldFailures_eq_nil_iff {name : String} {field : Pattern} :
    fieldFailures name field field.failures value = [] ↔ field.isUndefined = false ∧
      ∃ part, value.member? name = some part ∧ field.failures part = [] := by
  rw [fieldFailures]
  cases field.isUndefined with
  | true => simp
  | false => cases value.member? name <;> simp

theorem failuresOfFields_eq_flatMap {fields : List (String × Pattern)} :
    failuresOfFields fields value =
      fields.flatMap fun entry => fieldFailures entry.1 entry.2 entry.2.failures value := by
  induction fields with
  | nil => rfl
  | cons entry fields ih => rw [failuresOfFields, List.flatMap_cons, ih]

theorem failures_object {fields : List (String × Pattern)} (container : value.isPrimitive = false) :
    (object fields).failures value =
      fields.flatMap fun entry => fieldFailures entry.1 entry.2 entry.2.failures value := by
  simp only [failures, container, Bool.false_eq_true, if_false, failuresOfFields_eq_flatMap]

/-- A value is accepted when nothing is wrong with it. -/
theorem failures_eq_nil_iff (pattern : Pattern) (value : Value) :
    pattern.failures value = [] ↔ pattern.accepts value = true := by
  induction pattern generalizing value with
  | anyString => simp [failures, accepts]
  | anyBoolean => simp [failures, accepts]
  | anyNumber =>
    cases value with
    | scalar value => cases value <;> simp [failures, accepts, Value.number?]
    | list | record => simp [failures, accepts, Value.number?]
  | literal expected => simp [failures, accepts]
  | sequence element ih =>
    cases value with
    | list items => simp only [failures_list_eq_nil_iff, accepts_list_iff, ih]
    | scalar | record => simp [failures, accepts]
  | object fields ih =>
    rw [failures, accepts_object_iff]
    cases value.isPrimitive with
    | true => simp
    | false =>
      simp only [Bool.false_eq_true, if_false, true_and, failuresOfFields_eq_flatMap,
        List.flatMap_eq_nil_iff, fieldFailures_eq_nil_iff, Prod.forall]
      refine forall₃_congr fun name field declared => ?_
      simp only [ih name field declared]
  | undefined => simp [failures, accepts]

/-- The explanation and the decision never disagree. -/
theorem explain_eq_none_iff (pattern : Pattern) (value : Value) :
    pattern.explain value = none ↔ pattern.accepts value = true := by
  rw [explain_eq_head?, List.head?_eq_none_iff, failures_eq_nil_iff]

end Pattern

end Conform
