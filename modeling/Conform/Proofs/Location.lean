import Conform.Proofs.Failures
import Conform.Proofs.Member

/-!
Where a failure is and what it says: its path leads through the value and the pattern together, and
what stands at the end bears the reason out.
-/

namespace Conform

/-- The kind that a marker stands for. -/
def Pattern.marked? : Pattern → Option Kind
  | .anyString => some .string
  | .anyNumber => some .number
  | .anyBoolean => some .boolean
  | _ => none

/-- When a reason holds of a pattern and the value that it is given for. -/
inductive Reason.Holds : Reason → Pattern → Value → Prop where
  | expectedKind {expected : Kind} {pattern : Pattern} {value : Value}
      (marked : pattern.marked? = some expected) (other : value.kind ≠ expected) :
      Holds (.expectedKind expected value.kind) pattern value
  | notANumber {n : Binary64} (nan : n.isNaN = true) : Holds .notANumber .anyNumber (.number n)
  | notEqual {expected : Scalar} {value : Value} (different : expected.equalsValue value = false) :
      Holds (.notEqual expected value) (.literal expected) value
  | notASequence {element : Pattern} {value : Value} (other : value.kind ≠ .list) :
      Holds (.notASequence value.kind) (.sequence element) value
  | notARecord {fields : List (String × Pattern)} {value : Value}
      (primitive : value.isPrimitive = true) :
      Holds (.notARecord value.kind) (.object fields) value
  | missingField {fields : List (String × Pattern)} {name : String} {field : Pattern}
      {value : Value} (declared : (name, field) ∈ fields) (satisfiable : field ≠ .undefined)
      (container : value.isPrimitive = false)
      (absent : ∀ segment part, ¬ value.HasMember name segment part) :
      Holds (.missingField name) (.object fields) value
  | undefinedField {fields : List (String × Pattern)} {name : String} {value : Value}
      (declared : (name, .undefined) ∈ fields) (container : value.isPrimitive = false) :
      Holds (.undefinedField name) (.object fields) value
  | unsatisfiable {value : Value} : Holds .unsatisfiable .undefined value

/-- A step into a value together with the pattern that is meant for the part. -/
inductive Descends : Pattern → Value → Segment → Pattern → Value → Prop where
  | item {element : Pattern} {items : List Value} {position : Nat} {part : Value}
      (found : items[position]? = some part) :
      Descends (.sequence element) (.list items) (.index position) element part
  | member {fields : List (String × Pattern)} {name : String} {field : Pattern}
      {value part : Value} {segment : Segment} (declared : (name, field) ∈ fields)
      (satisfiable : field ≠ .undefined) (present : value.HasMember name segment part) :
      Descends (.object fields) value segment field part

/-- Any number of steps into a value and a pattern. -/
inductive Reaches : Pattern → Value → List Segment → Pattern → Value → Prop where
  | here {pattern : Pattern} {value : Value} : Reaches pattern value [] pattern value
  | step {pattern field target : Pattern} {value part goal : Value} {segment : Segment}
      {segments : List Segment} (first : Descends pattern value segment field part)
      (rest : Reaches field part segments target goal) :
      Reaches pattern value (segment :: segments) target goal

section

variable {pattern field target : Pattern} {value part goal : Value} {segment : Segment}
  {segments : List Segment} {reason : Reason} {mismatch : Mismatch} {name : String}
  {fields : List (String × Pattern)}

theorem Descends.step?_eq (step : Descends pattern value segment field part) :
    value.step? segment = some part := by
  cases step with
  | item found => exact found
  | member declared satisfiable present => exact present.step?_eq

theorem Reaches.at?_eq (path : Reaches pattern value segments target goal) :
    value.at? ⟨segments⟩ = some goal := by
  induction path with
  | here => rfl
  | step first rest ih =>
    rw [Value.at?, List.foldlM_cons, first.step?_eq]
    exact ih

namespace Pattern

theorem fieldFailures_of_hasMember {own : Value → List Mismatch} (satisfiable : field ≠ .undefined)
    (member : value.HasMember name segment part) :
    fieldFailures name field own value = (own part).map (.under segment) := by
  obtain ⟨found, step⟩ := member.member?_eq
  simp [fieldFailures, isUndefined_eq_false_iff.mpr satisfiable, found, step]

theorem mem_fieldFailures_iff {own : Value → List Mismatch} :
    mismatch ∈ fieldFailures name field own value ↔
      field = .undefined ∧ mismatch = .here (.undefinedField name) ∨
      field ≠ .undefined ∧
        ((∀ segment part, ¬ value.HasMember name segment part) ∧
            mismatch = .here (.missingField name) ∨
          ∃ segment part, value.HasMember name segment part ∧
            ∃ inner ∈ own part, mismatch = inner.under segment) := by
  rw [fieldFailures]
  by_cases undefined : field = .undefined
  · simp [undefined, isUndefined]
  · have satisfiable := isUndefined_eq_false_iff.mpr undefined
    cases found : value.member? name with
    | none =>
      have absent := Value.member?_eq_none_iff.mp found
      simp [undefined, satisfiable, absent]
    | some part =>
      have member := Value.hasMember_of_member? found
      simp only [undefined, satisfiable, Bool.false_eq_true, if_false, false_and, false_or, ne_eq,
        not_false_eq_true, true_and, List.mem_map]
      constructor
      · rintro ⟨inner, wrong, rfl⟩
        exact .inr ⟨_, part, member, inner, wrong, rfl⟩
      · rintro (⟨absent, _⟩ | ⟨segment, other, there, inner, wrong, rfl⟩)
        · exact absurd member (absent _ part)
        · obtain ⟨rfl, rfl⟩ := there.unique member
          exact ⟨inner, wrong, rfl⟩

theorem mem_failures_object (container : value.isPrimitive = false) :
    mismatch ∈ (object fields).failures value ↔
      ∃ name field, (name, field) ∈ fields ∧
        mismatch ∈ fieldFailures name field field.failures value := by
  simp only [failures_object container, List.mem_flatMap, Prod.exists]

theorem failures_of_other_kind {expected : Kind} (marked : pattern.marked? = some expected)
    (other : value.kind ≠ expected) :
    pattern.failures value = [.here (.expectedKind expected value.kind)] := by
  cases pattern with
  | anyString =>
    cases marked
    rw [failures, if_neg other]
  | anyBoolean =>
    cases marked
    rw [failures, if_neg other]
  | anyNumber =>
    cases marked
    cases value with
    | scalar value =>
      cases value with
      | number n => exact absurd rfl other
      | null | boolean | string => rfl
    | list | record => rfl
  | literal | sequence | object | undefined => cases marked

/-- Every reason that holds of a value and a pattern is listed. -/
theorem mem_failures_of_holds (holds : reason.Holds pattern value) :
    Mismatch.here reason ∈ pattern.failures value := by
  cases holds with
  | expectedKind marked other =>
    rw [failures_of_other_kind marked other]
    exact List.mem_singleton.mpr rfl
  | notANumber nan => simp [failures, Value.number, nan]
  | notEqual different => simp [failures, different]
  | notASequence other =>
    cases value with
    | list items => exact absurd rfl other
    | scalar | record => exact List.mem_singleton.mpr rfl
  | notARecord primitive => simp [failures, primitive]
  | missingField declared satisfiable container absent =>
    refine (mem_failures_object container).mpr ⟨_, _, declared, ?_⟩
    exact mem_fieldFailures_iff.mpr (.inr ⟨satisfiable, .inl ⟨absent, rfl⟩⟩)
  | undefinedField declared container =>
    refine (mem_failures_object container).mpr ⟨_, _, declared, ?_⟩
    exact mem_fieldFailures_iff.mpr (.inl ⟨rfl, rfl⟩)
  | unsatisfiable => exact List.mem_singleton.mpr rfl

/-- What is wrong with a part is wrong with the whole. -/
theorem mem_failures_of_descends (step : Descends pattern value segment field part)
    (wrong : mismatch ∈ field.failures part) : mismatch.under segment ∈ pattern.failures value := by
  cases step with
  | item found =>
    refine List.mem_flatMap.mpr ⟨(part, _), List.mk_mem_zipIdx_iff_getElem?.mpr found, ?_⟩
    exact List.mem_map.mpr ⟨mismatch, wrong, rfl⟩
  | member declared satisfiable present =>
    refine (mem_failures_object ?_).mpr ⟨_, field, declared, ?_⟩
    · cases present <;> rfl
    · exact mem_fieldFailures_iff.mpr
        (.inr ⟨satisfiable, .inr ⟨segment, part, present, mismatch, wrong, rfl⟩⟩)

theorem marker_failures_cases {expected : Kind} (marked : pattern.marked? = some expected)
    (wrong : mismatch ∈ pattern.failures value) :
    ∃ reason : Reason, reason.Holds pattern value ∧ mismatch = .here reason := by
  by_cases same : value.kind = expected
  · cases pattern with
    | anyString =>
      cases marked
      simp [failures, same] at wrong
    | anyBoolean =>
      cases marked
      simp [failures, same] at wrong
    | anyNumber =>
      cases marked
      cases value with
      | scalar value =>
        cases value with
        | number n =>
          rw [failures] at wrong
          split at wrong
          · rename_i nan
            exact ⟨_, .notANumber nan, List.mem_singleton.mp wrong⟩
          · cases wrong
        | null | boolean | string => cases same
      | list | record => cases same
    | literal | sequence | object | undefined => cases marked
  · rw [failures_of_other_kind marked same] at wrong
    exact ⟨_, .expectedKind marked same, List.mem_singleton.mp wrong⟩

/-- A failure is one of the whole or one of a part. -/
theorem failures_cases (wrong : mismatch ∈ pattern.failures value) :
    (∃ reason : Reason, reason.Holds pattern value ∧ mismatch = .here reason) ∨
      ∃ segment field part inner, Descends pattern value segment field part ∧
        inner ∈ field.failures part ∧ mismatch = inner.under segment := by
  cases pattern with
  | anyString | anyNumber | anyBoolean => exact .inl (marker_failures_cases rfl wrong)
  | literal expected =>
    rw [failures] at wrong
    split at wrong
    · cases wrong
    · rename_i different
      exact .inl ⟨_, .notEqual (Bool.eq_false_iff.mpr different), List.mem_singleton.mp wrong⟩
  | sequence element =>
    cases value with
    | list items =>
      obtain ⟨⟨part, position⟩, entry, inside⟩ := List.mem_flatMap.mp wrong
      obtain ⟨inner, own, rfl⟩ := List.mem_map.mp inside
      have found := List.mk_mem_zipIdx_iff_getElem?.mp entry
      exact .inr ⟨.index position, element, part, inner, .item found, own, rfl⟩
    | scalar value =>
      refine .inl ⟨_, .notASequence ?_, List.mem_singleton.mp wrong⟩
      cases value <;> simp [Value.kind, Scalar.kind]
    | record fields =>
      exact .inl ⟨_, .notASequence (by simp [Value.kind]), List.mem_singleton.mp wrong⟩
  | object fields =>
    cases primitive : value.isPrimitive with
    | true =>
      rw [failures, primitive, if_pos rfl] at wrong
      exact .inl ⟨_, .notARecord primitive, List.mem_singleton.mp wrong⟩
    | false =>
      obtain ⟨name, field, declared, inside⟩ := (mem_failures_object primitive).mp wrong
      rcases mem_fieldFailures_iff.mp inside with ⟨rfl, same⟩ |
        ⟨satisfiable, ⟨absent, same⟩ | ⟨segment, part, present, inner, own, same⟩⟩
      · exact .inl ⟨_, .undefinedField declared primitive, same⟩
      · exact .inl ⟨_, .missingField declared satisfiable primitive absent, same⟩
      · exact .inr ⟨segment, field, part, inner, .member declared satisfiable present, own, same⟩
  | undefined => exact .inl ⟨_, .unsatisfiable, List.mem_singleton.mp wrong⟩

/-- The list is sound and complete: an entry is a path through the pattern and the value together,
with a reason that holds at its end. Each step leaves a shorter path, and `failures_cases` takes the
pattern and the value apart. -/
theorem mem_failures_iff :
    mismatch ∈ pattern.failures value ↔
      ∃ target goal, Reaches pattern value mismatch.path.segments target goal ∧
        mismatch.reason.Holds target goal := by
  constructor
  · obtain ⟨⟨segments⟩, reason⟩ := mismatch
    intro wrong
    induction segments generalizing pattern value with
    | nil =>
      rcases failures_cases wrong with ⟨reason, holds, same⟩ | ⟨_, _, _, _, _, _, same⟩
      · cases same
        exact ⟨pattern, value, .here, holds⟩
      · cases same
    | cons segment segments ih =>
      rcases failures_cases wrong with ⟨_, _, same⟩ | ⟨_, field, part, inner, step, own, same⟩
      · cases same
      · cases same
        obtain ⟨target, goal, rest, holds⟩ := ih own
        exact ⟨target, goal, .step step rest, holds⟩
  · rintro ⟨target, goal, path, holds⟩
    obtain ⟨⟨segments⟩, reason⟩ := mismatch
    change Reaches pattern value segments target goal at path
    induction path with
    | here => exact mem_failures_of_holds holds
    | step first rest ih => exact mem_failures_of_descends first (ih holds)

/-- An explanation leads to a place where its reason holds. -/
theorem explain_located (found : pattern.explain value = some mismatch) :
    ∃ target goal, Reaches pattern value mismatch.path.segments target goal ∧
      value.at? mismatch.path = some goal ∧ mismatch.reason.Holds target goal := by
  rw [explain_eq_head?] at found
  obtain ⟨target, goal, path, holds⟩ := mem_failures_iff.mp (List.mem_of_head? found)
  exact ⟨target, goal, path, path.at?_eq, holds⟩

/-- A numeral steps to an item of a list and to a field of a record. -/
theorem explain_located_numerals :
    (object [("0", .anyString), ("1", .object [("0", .sequence .anyNumber)])]).explain
        (.list [.string "a", .ofPairs [("0", .list [.string "b"])]]) =
      some ⟨⟨[.index 1, .field "0", .index 0]⟩, .expectedKind .number .string⟩ ∧
    ∃ target goal,
      Reaches (object [("0", .anyString), ("1", .object [("0", .sequence .anyNumber)])])
        (.list [.string "a", .ofPairs [("0", .list [.string "b"])]])
        [.index 1, .field "0", .index 0] target goal ∧
      Value.at? (.list [.string "a", .ofPairs [("0", .list [.string "b"])]])
        ⟨[.index 1, .field "0", .index 0]⟩ = some goal ∧
      Reason.Holds (.expectedKind .number .string) target goal :=
  ⟨rfl, @explain_located _ _ ⟨⟨[.index 1, .field "0", .index 0]⟩, _⟩ rfl⟩

/-- The explanation is the first entry of the complete list, which has an entry for every place at
which a reason holds. -/
theorem explain_eq_first_failure (pattern : Pattern) (value : Value) :
    pattern.explain value = (pattern.failures value).head? ∧
      (pattern.explain value = none ↔ pattern.failures value = []) ∧
      ∀ mismatch, mismatch ∈ pattern.failures value ↔
        ∃ target goal, Reaches pattern value mismatch.path.segments target goal ∧
          mismatch.reason.Holds target goal := by
  refine ⟨explain_eq_head?, ?_, fun mismatch => mem_failures_iff⟩
  rw [explain_eq_head?, List.head?_eq_none_iff]

end Pattern

end

end Conform
