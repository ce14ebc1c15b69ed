import Conform.Proofs.Failures
import Conform.Proofs.Firing
import Conform.Proofs.Unsigned
import Conform.Shared

/-!
Matching does not tell equal values apart, and neither does it tell equal patterns apart. What it
sees of either is the same without the signs of zeros.
-/

namespace Conform

/-- The reason without the sign of any zero that it quotes. -/
def Reason.unsigned : Reason → Reason
  | .notEqual expected found => .notEqual expected.unsigned found.unsigned
  | reason => reason

namespace Mismatch

/-- The mismatch without the sign of any zero that its reason quotes. -/
def unsigned (mismatch : Mismatch) : Mismatch :=
  ⟨mismatch.path, mismatch.reason.unsigned⟩

/-- Mismatches at one place, for reasons that differ in the signs of zeros at most. -/
structure Agrees (mismatch other : Mismatch) : Prop where
  path : mismatch.path = other.path
  reason : mismatch.reason.unsigned = other.reason.unsigned

theorem agrees_of_unsigned_eq {mismatch other : Mismatch}
    (same : mismatch.unsigned = other.unsigned) : mismatch.Agrees other :=
  ⟨congrArg (·.path) same, congrArg (·.reason) same⟩

end Mismatch

namespace Value

variable (value : Value) (name : String)

theorem kind_unsigned : value.unsigned.kind = value.kind := by
  cases value with
  | scalar value => cases value <;> rfl
  | list | record => rfl

theorem isPrimitive_unsigned : value.unsigned.isPrimitive = value.isPrimitive := by
  cases value <;> rfl

theorem segment_unsigned : value.unsigned.segment name = value.segment name := by
  cases value with
  | scalar | record => rfl
  | list items => cases read : position? name <;> simp [unsigned_list, segment, read]

theorem member?_unsigned : value.unsigned.member? name = (value.member? name).map unsigned := by
  cases value with
  | scalar => rfl
  | list items =>
    rw [unsigned_list, member?, member?, Option.map_bind]
    refine congrArg _ (funext fun position => ?_)
    exact List.getElem?_map
  | record fields =>
    rw [unsigned_record]
    exact Fields.find?_map ..

end Value

theorem Scalar.equalsValue_unsigned (literal : Scalar) (value : Value) :
    literal.unsigned.equalsValue value.unsigned = literal.equalsValue value := by
  cases value with
  | scalar value => exact equal_unsigned literal value
  | list | record => rfl

namespace Pattern

theorem isUndefined_unsigned (pattern : Pattern) :
    pattern.unsigned.isUndefined = pattern.isUndefined := by
  cases pattern <;> rfl

theorem fieldFailures_unsigned {field : Pattern} {name : String} {value : Value}
    (own : ∀ part : Value, field.unsigned.failures part.unsigned =
      (field.failures part).map Mismatch.unsigned) :
    fieldFailures name field.unsigned field.unsigned.failures value.unsigned =
      (fieldFailures name field field.failures value).map Mismatch.unsigned := by
  rw [fieldFailures, fieldFailures, isUndefined_unsigned, Value.member?_unsigned,
    Value.segment_unsigned]
  split
  · rfl
  · cases value.member? name with
    | none => rfl
    | some part =>
      simp only [Option.map_some, own, List.map_map]
      rfl

/-- What is wrong with a value is the same, but for the zeros that are quoted, when neither the
pattern nor the value has their signs. -/
theorem failures_unsigned (pattern : Pattern) (value : Value) :
    pattern.unsigned.failures value.unsigned =
      (pattern.failures value).map Mismatch.unsigned := by
  induction pattern generalizing value with
  | anyString =>
    change anyString.failures value.unsigned = _
    rw [failures, failures, Value.kind_unsigned]
    split <;> rfl
  | anyBoolean =>
    change anyBoolean.failures value.unsigned = _
    rw [failures, failures, Value.kind_unsigned]
    split <;> rfl
  | anyNumber =>
    cases value with
    | scalar value =>
      cases value with
      | number x =>
        change anyNumber.failures (.number x.unsigned) = _
        simp only [Value.number, failures, Binary64.isNaN_unsigned]
        split <;> rfl
      | null | boolean | string => rfl
    | list | record => rfl
  | literal expected =>
    rw [unsigned_literal, failures, failures, Scalar.equalsValue_unsigned]
    split <;> rfl
  | sequence element ih =>
    rw [unsigned_sequence]
    cases value with
    | scalar value =>
      exact congrArg (fun kind => [Mismatch.here (.notASequence kind)])
        (Value.kind_unsigned (.scalar value))
    | list items =>
      rw [Value.unsigned_list, failures, failures, List.zipIdx_map, List.flatMap_map,
        List.map_flatMap]
      apply List.flatMap_congr
      intro entry member
      rw [Prod.map_fst, Prod.map_snd, ih, List.map_map, List.map_map]
      rfl
    | record => rfl
  | object fields ih =>
    rw [unsigned_object, failures, failures, Value.isPrimitive_unsigned]
    split
    · rw [Value.kind_unsigned]
      rfl
    · rw [failuresOfFields_eq_flatMap, failuresOfFields_eq_flatMap, List.flatMap_map,
        List.map_flatMap]
      apply List.flatMap_congr
      intro entry declared
      exact fieldFailures_unsigned (ih entry.1 entry.2 declared)
  | undefined => rfl

theorem accepts_unsigned (pattern : Pattern) (value : Value) :
    pattern.unsigned.accepts value.unsigned = pattern.accepts value := by
  rw [Bool.eq_iff_iff, ← failures_eq_nil_iff, ← failures_eq_nil_iff, failures_unsigned,
    List.map_eq_nil_iff]

theorem explain_unsigned (pattern : Pattern) (value : Value) :
    pattern.unsigned.explain value.unsigned = (pattern.explain value).map Mismatch.unsigned := by
  rw [explain_eq_head?, explain_eq_head?, failures_unsigned, List.head?_map]

/-- One outcome of two matches: the decision, and where the value is not what was expected. -/
structure SameOutcome (pattern other : Pattern) (value another : Value) : Prop where
  accepts : pattern.accepts value = other.accepts another
  explain : Option.Rel Mismatch.Agrees (pattern.explain value) (other.explain another)

theorem sameOutcome_of_unsigned_eq {pattern other : Pattern} {value another : Value}
    (patterns : pattern.unsigned = other.unsigned) (values : value.unsigned = another.unsigned) :
    SameOutcome pattern other value another := by
  have explained : (pattern.explain value).map Mismatch.unsigned =
      (other.explain another).map Mismatch.unsigned := by
    rw [← explain_unsigned, ← explain_unsigned, patterns, values]
  constructor
  case accepts => rw [← accepts_unsigned, patterns, values, accepts_unsigned]
  case explain =>
    cases first : pattern.explain value <;> cases second : other.explain another <;>
      simp only [first, second, Option.map_some, Option.map_none, reduceCtorEq,
        Option.some.injEq] at explained
    case none.none => exact .none
    case some.some => exact .some (Mismatch.agrees_of_unsigned_eq explained)

end Pattern

variable {m : Type → Type} {ι α β : Type} [Monad m] [LawfulMonad m] [Observed m] [Inspectable ι]

/-- Matching respects equality of values, whatever the inputs are that hold them, and equality of
patterns. So unguarded clauses are chosen alike for equal inputs, and both evaluations go on with
what the clause of one index does. -/
theorem matching_congruence :
    (∀ input other : ι,
      (Inspectable.content input).equal (Inspectable.content other) = true → ∀ pattern : Pattern,
        pattern.SameOutcome pattern (Inspectable.content input) (Inspectable.content other)) ∧
    (∀ pattern other : Pattern, pattern.equal other = true → ∀ value : Value,
      pattern.SameOutcome other value value) ∧
    ∀ (first : Session m ι α) (second : Session m ι β), first.headings = second.headings →
      (∀ heading ∈ first.headings, heading.guarded = false) →
      (Inspectable.content first.input).equal (Inspectable.content second.input) = true →
        ∃ index : Option Nat, Gives first.firing index ∧ Gives second.firing index ∧
          (∃ effects : m Unit, first.evaluate = effects >>= fun _ => first.conclude index) ∧
          ∃ effects : m Unit, second.evaluate = effects >>= fun _ => second.conclude index := by
  have respects : ∀ input other : ι,
      (Inspectable.content input).equal (Inspectable.content other) = true → ∀ pattern : Pattern,
        pattern.SameOutcome pattern (Inspectable.content input) (Inspectable.content other) := by
    intro input other equal pattern
    exact Pattern.sameOutcome_of_unsigned_eq rfl (Value.equal_iff_unsigned.mp equal).2
  refine ⟨respects, ?_, ?_⟩
  · intro pattern other equal value
    exact Pattern.sameOutcome_of_unsigned_eq (Pattern.equal_iff_unsigned.mp equal).2 rfl
  · intro first second headings unguarded equal
    have fires : (fun heading : Heading => heading.fires (Inspectable.content second.input)) =
        fun heading => heading.fires (Inspectable.content first.input) := by
      funext heading
      rw [Heading.fires, Heading.fires, (respects _ _ equal heading.pattern).accepts]
    have own := Session.firing_gives_of_unguarded unguarded
    have others := Session.firing_gives_of_unguarded (headings ▸ unguarded)
    rw [fires, ← headings] at others
    exact ⟨_, own, others, Session.evaluate_settled own, Session.evaluate_settled others⟩

/-- Two records made apart, with their entries in two orders and zeros of two signs. -/
theorem matching_congruence_zero :
    ∃ value other : Shared,
      value = ((Blueprint.record [("x", .scalar (.number .zero)), ("y", .list [])]).build.run 0).1 ∧
      other = ((Blueprint.record [("y", .list []),
        ("x", .scalar (.number .negativeZero))]).build.run 3).1 ∧
      value.strictEqual other ≠ true ∧
      (Pattern.object [("x", .ofInt 1)]).SameOutcome (.object [("x", .ofInt 1)]) value.content
        other.content ∧
      (Pattern.object [("x", .number .zero)]).SameOutcome
        (.object [("x", .number .negativeZero)]) value.content value.content ∧
      ∃ chain : List (Declaration Id Shared Nat),
        chain = [.accept (.object [("x", .ofInt 1)]) fun _ => 1, .refuse .anyString fun _ => 2,
          .accept .undefined fun _ => 3] ∧
        ∃ index, (Session.build value chain).firing = index ∧
          (Session.build other chain).firing = index := by
  obtain ⟨values, patterns, sessions⟩ := @matching_congruence Id Shared Nat Nat _ _ _ _
  have fires : ∀ {first second : Session Id Shared Nat}, first.headings = second.headings →
      (∀ heading ∈ first.headings, heading.guarded = false) →
      first.input.content.equal second.input.content = true →
        ∃ index, first.firing = index ∧ second.firing = index := by
    intro first second headings unguarded equal
    obtain ⟨index, own, others, _⟩ := sessions first second headings unguarded equal
    exact ⟨index, Gives.of_id.mp own, Gives.of_id.mp others⟩
  refine ⟨_, _, rfl, rfl, by decide, values _ _ (by decide) _, patterns _ _ (by decide) _, ?_⟩
  exact ⟨_, rfl, fires rfl (by decide) (by decide)⟩

end Conform
