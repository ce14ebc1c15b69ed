import Conform.Proofs.Acceptance
import Conform.Proofs.Equality
import Conform.Proofs.Member

/-!
Acceptance by ordered rules. The rules look at the pattern and at the value; of those that apply to
the two the first decides, and what it asks of a part is decided by the rules again.
-/

namespace Conform

namespace Pattern

/-- The rules, each named for what it is about. -/
inductive Rule where
  | text
  | boolean
  | number
  | sequence
  | primitive
  | container
  | otherwise
  deriving DecidableEq, Repr

/-- A pattern that stands one level inside another. -/
inductive IsPart : Pattern → Pattern → Prop where
  | element {element : Pattern} : IsPart element (.sequence element)
  | field {fields : List (String × Pattern)} {name : String} {field : Pattern}
      (declared : (name, field) ∈ fields) : IsPart field (.object fields)

namespace Rule

/-- The rules in the order in which they are tried. -/
def precedence : List Rule :=
  [.text, .boolean, .number, .sequence, .primitive, .container, .otherwise]

/-- Markers and sequences go by the pattern alone. Then the value comes first: a primitive is
settled before it matters whether the pattern is an object. -/
def applies : Rule → Pattern → Value → Bool
  | .text, .anyString, _ => true
  | .boolean, .anyBoolean, _ => true
  | .number, .anyNumber, _ => true
  | .sequence, .sequence _, _ => true
  | .primitive, _, value => value.isPrimitive
  | .container, .object _, value => !value.isPrimitive
  | .otherwise, _, _ => true
  | _, _, _ => false

/-- The rule that decides. -/
def first? (pattern : Pattern) (value : Value) : Option Rule :=
  precedence.find? fun rule => rule.applies pattern value

/-- What a rule accepts, given a verdict on the parts. Whatever is not listed it refuses. -/
inductive Grants (verdict : Pattern → Value → Prop) : Rule → Pattern → Value → Prop where
  | text {text : String} : Grants verdict .text .anyString (.string text)
  | boolean {value : Bool} : Grants verdict .boolean .anyBoolean (.boolean value)
  | number {x : Binary64} (proper : x.isNaN = false) :
      Grants verdict .number .anyNumber (.number x)
  | sequence {element : Pattern} {items : List Value}
      (all : ∀ item ∈ items, verdict element item) :
      Grants verdict .sequence (.sequence element) (.list items)
  | primitive {expected found : Scalar} (same : expected.Same found) :
      Grants verdict .primitive (.literal expected) (.scalar found)
  | container {fields : List (String × Pattern)} {value : Value}
      (all : ∀ name field, (name, field) ∈ fields → field ≠ .undefined ∧
        ∃ segment part, value.HasMember name segment part ∧ verdict field part) :
      Grants verdict .container (.object fields) value

/-- A verdict follows the rules when everywhere the first rule that applies gives it, going by the
same verdict on the parts. -/
def Followed (verdict : Pattern → Value → Prop) : Prop :=
  ∀ pattern value, ∃ rule, first? pattern value = some rule ∧
    (verdict pattern value ↔ rule.Grants verdict pattern value)

variable {rule : Rule} {pattern : Pattern} {value : Value} {verdict other : Pattern → Value → Prop}

theorem Grants.mono (implies : ∀ part, part.IsPart pattern → ∀ value,
      verdict part value → other part value)
    (granted : rule.Grants verdict pattern value) : rule.Grants other pattern value := by
  cases granted with
  | text => exact .text
  | boolean => exact .boolean
  | number proper => exact .number proper
  | sequence all => exact .sequence fun item member => implies _ .element item (all item member)
  | primitive same => exact .primitive same
  | container all =>
    refine .container fun name field declared => ?_
    obtain ⟨satisfiable, segment, part, present, inner⟩ := all name field declared
    exact ⟨satisfiable, segment, part, present, implies field (.field declared) part inner⟩

/-- What a rule accepts depends on the verdict on the parts alone. -/
theorem grants_congr (same : ∀ part, part.IsPart pattern → ∀ value,
      verdict part value ↔ other part value) :
    rule.Grants verdict pattern value ↔ rule.Grants other pattern value :=
  ⟨.mono fun part inside value => (same part inside value).mp,
    .mono fun part inside value => (same part inside value).mpr⟩

theorem Followed.step (followed : Followed verdict) (again : Followed other)
    (same : ∀ part, part.IsPart pattern → ∀ value, verdict part value ↔ other part value)
    (value : Value) : verdict pattern value ↔ other pattern value := by
  obtain ⟨rule, first, own⟩ := followed pattern value
  obtain ⟨_, found, counterpart⟩ := again pattern value
  obtain rfl := Option.some.inj (first.symm.trans found)
  exact own.trans ((grants_congr same).trans counterpart.symm)

/-- The rules leave no choice: two verdicts that follow them are the same. -/
theorem Followed.unique (followed : Followed verdict) (again : Followed other)
    (pattern : Pattern) (value : Value) : verdict pattern value ↔ other pattern value := by
  induction pattern generalizing value with
  | anyString | anyNumber | anyBoolean | literal | undefined =>
    apply followed.step again
    intro part inside
    cases inside
  | sequence element ih =>
    apply followed.step again
    intro part inside
    cases inside
    exact ih
  | object fields ih =>
    apply followed.step again
    intro part inside
    cases inside with
    | field declared => exact ih _ part declared

end Rule

variable {fields : List (String × Pattern)} {value : Value}

theorem accepts_object_iff_hasMember :
    (object fields).accepts value = true ↔
      value.isPrimitive = false ∧ ∀ name field, (name, field) ∈ fields → field ≠ .undefined ∧
        ∃ segment part, value.HasMember name segment part ∧ field.accepts part = true := by
  rw [accepts_object_iff]
  refine and_congr_right fun _ => forall₃_congr fun name field _ => ?_
  apply and_congr isUndefined_eq_false_iff
  constructor
  · intro inside
    obtain ⟨part, found, accepted⟩ := inside
    exact ⟨_, part, Value.hasMember_of_member? found, accepted⟩
  · intro inside
    obtain ⟨segment, part, present, accepted⟩ := inside
    exact ⟨part, present.member?_eq.1, accepted⟩

/-- Acceptance goes by the pattern alone, and yet by the rules, of which some go by the value. -/
theorem accepts_followed : Rule.Followed fun pattern value => pattern.accepts value = true := by
  intro pattern value
  cases pattern with
  | anyString =>
    refine ⟨.text, rfl, accepts_anyString_iff.trans ⟨?_, ?_⟩⟩
    · intro string
      obtain ⟨text, rfl⟩ := string
      exact .text
    · intro granted
      cases granted
      exact ⟨_, rfl⟩
  | anyBoolean =>
    refine ⟨.boolean, rfl, accepts_anyBoolean_iff.trans ⟨?_, ?_⟩⟩
    · intro boolean
      obtain ⟨answer, rfl⟩ := boolean
      exact .boolean
    · intro granted
      cases granted
      exact ⟨_, rfl⟩
  | anyNumber =>
    refine ⟨.number, rfl, accepts_anyNumber_iff.trans ⟨?_, ?_⟩⟩
    · intro number
      obtain ⟨x, rfl, proper⟩ := number
      exact .number proper
    · intro granted
      cases granted with
      | number proper => exact ⟨_, rfl, proper⟩
  | sequence element =>
    refine ⟨.sequence, rfl, accepts_sequence_iff.trans ⟨?_, ?_⟩⟩
    · intro list
      obtain ⟨items, rfl, all⟩ := list
      exact .sequence all
    · intro granted
      cases granted with
      | sequence all => exact ⟨_, rfl, all⟩
  | literal expected =>
    cases value with
    | scalar found =>
      refine ⟨.primitive, rfl, Scalar.equal_iff_same.trans ⟨.primitive, ?_⟩⟩
      intro granted
      cases granted with
      | primitive same => exact same
    | list | record => exact ⟨.otherwise, rfl, nofun, nofun⟩
  | object fields =>
    cases value with
    | scalar value => exact ⟨.primitive, rfl, nofun, nofun⟩
    | list | record =>
      refine ⟨.container, rfl, accepts_object_iff_hasMember.trans ⟨?_, ?_⟩⟩
      · intro both
        exact .container both.2
      · intro granted
        cases granted with
        | container all => exact ⟨rfl, all⟩
  | undefined =>
    cases value with
    | scalar value => exact ⟨.primitive, rfl, nofun, nofun⟩
    | list | record => exact ⟨.otherwise, rfl, nofun, nofun⟩

/-- Acceptance is what the ordered rules say, applied again and again: it follows them, and no
other verdict does. -/
theorem accepts_by_precedence (verdict : Pattern → Value → Prop) :
    Rule.Followed verdict ↔
      ∀ pattern value, verdict pattern value ↔ pattern.accepts value = true := by
  constructor
  · intro followed
    exact followed.unique accepts_followed
  · intro same
    have equal : verdict = fun pattern value => pattern.accepts value = true := by
      funext pattern value
      exact propext (same pattern value)
    rw [equal]
    exact accepts_followed

end Pattern

end Conform
