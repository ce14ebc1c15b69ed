import Conform.Acceptance

/-!
Acceptance of a whole in terms of its parts, and induction over patterns.
-/

namespace Conform

/-- Induction over patterns, with a hypothesis for every field that an object declares. -/
@[elab_as_elim, induction_eliminator]
theorem Pattern.induction {motive : Pattern → Prop}
    (anyString : motive .anyString) (anyNumber : motive .anyNumber)
    (anyBoolean : motive .anyBoolean) (literal : ∀ value, motive (.literal value))
    (sequence : ∀ element, motive element → motive (.sequence element))
    (object : ∀ fields, (∀ name field, (name, field) ∈ fields → motive field) →
      motive (.object fields))
    (undefined : motive .undefined) (pattern : Pattern) : motive pattern := by
  refine @Pattern.rec motive (fun fields => ∀ name field, (name, field) ∈ fields → motive field)
    (fun entry => motive entry.2) anyString anyNumber anyBoolean literal sequence object undefined
    ?nil ?cons (fun _ _ own => own) pattern
  case nil =>
    intro name field member
    cases member
  case cons =>
    intro entry rest own others name field member
    rcases List.mem_cons.mp member with same | later
    · subst same
      exact own
    · exact others name field later

namespace Pattern

variable {element : Pattern} {fields : List (String × Pattern)} {items : List Value}
  {value : Value}

theorem isUndefined_eq_false_iff {pattern : Pattern} :
    pattern.isUndefined = false ↔ pattern ≠ .undefined := by
  cases pattern <;> simp [isUndefined]

theorem accepts_anyString_iff :
    anyString.accepts value = true ↔ ∃ text, value = .string text := by
  constructor
  · intro accepted
    cases value with
    | scalar value =>
      cases value with
      | string text => exact ⟨text, rfl⟩
      | null | boolean | number => cases accepted
    | list | record => cases accepted
  · intro string
    obtain ⟨text, rfl⟩ := string
    rfl

theorem accepts_anyBoolean_iff :
    anyBoolean.accepts value = true ↔ ∃ answer, value = .boolean answer := by
  constructor
  · intro accepted
    cases value with
    | scalar value =>
      cases value with
      | boolean answer => exact ⟨answer, rfl⟩
      | null | number | string => cases accepted
    | list | record => cases accepted
  · intro boolean
    obtain ⟨answer, rfl⟩ := boolean
    rfl

theorem accepts_anyNumber_iff :
    anyNumber.accepts value = true ↔ ∃ x, value = .number x ∧ x.isNaN = false := by
  constructor
  · intro accepted
    cases value with
    | scalar value =>
      cases value with
      | number x => exact ⟨x, rfl, (Bool.not_eq_true' _).mp accepted⟩
      | null | boolean | string => cases accepted
    | list | record => cases accepted
  · intro number
    obtain ⟨x, rfl, proper⟩ := number
    exact (Bool.not_eq_true' _).mpr proper

theorem accepts_list_iff :
    (sequence element).accepts (.list items) = true ↔
      ∀ item ∈ items, element.accepts item = true := by
  rw [accepts, List.all_eq_true]

theorem accepts_sequence_iff :
    (sequence element).accepts value = true ↔
      ∃ items, value = .list items ∧ ∀ item ∈ items, element.accepts item = true := by
  constructor
  · intro accepted
    cases value with
    | list items => exact ⟨items, rfl, accepts_list_iff.mp accepted⟩
    | scalar | record => cases accepted
  · intro list
    obtain ⟨items, rfl, all⟩ := list
    exact accepts_list_iff.mpr all

theorem forall_field_cons {holds : String → Pattern → Prop} {name : String} {field : Pattern} :
    (∀ other counterpart, (other, counterpart) ∈ (name, field) :: fields →
        holds other counterpart) ↔
      holds name field ∧
        ∀ other counterpart, (other, counterpart) ∈ fields → holds other counterpart := by
  constructor
  · intro all
    refine ⟨all name field List.mem_cons_self, ?_⟩
    intro other counterpart later
    exact all other counterpart (List.mem_cons_of_mem _ later)
  · rintro ⟨own, others⟩ other counterpart member
    rcases List.mem_cons.mp member with same | later
    · cases same
      exact own
    · exact others other counterpart later

/-- Every declared field is satisfiable, present and accepted, whatever else the value has. -/
theorem acceptsFields_iff :
    acceptsFields fields value = true ↔
      ∀ name field, (name, field) ∈ fields → field.isUndefined = false ∧
        ∃ part, value.member? name = some part ∧ field.accepts part = true := by
  induction fields with
  | nil => simp [acceptsFields]
  | cons entry fields ih =>
    obtain ⟨name, field⟩ := entry
    rw [forall_field_cons, acceptsFields, Bool.and_eq_true, Bool.and_eq_true, Bool.not_eq_true',
      Option.any_eq_true, ih]

theorem accepts_object_iff :
    (object fields).accepts value = true ↔
      value.isPrimitive = false ∧ ∀ name field, (name, field) ∈ fields →
        field.isUndefined = false ∧
          ∃ part, value.member? name = some part ∧ field.accepts part = true := by
  rw [accepts, Bool.and_eq_true, Bool.not_eq_true', acceptsFields_iff]

end Pattern

end Conform
