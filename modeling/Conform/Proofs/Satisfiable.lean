import Conform.Proofs.NameOrder
import Conform.Proofs.Repair

/-!
Satisfiability can be read off a pattern. What every accepted value has to meet are the fields of
objects inside objects, so a pattern is satisfiable when none of these is one that nothing meets.
-/

namespace Conform.Pattern

def Satisfiable (pattern : Pattern) : Prop :=
  ∃ value, pattern.accepts value = true

/-- The leaves that accept nothing: what is undefined, and a literal that is no number. -/
inductive Impossible : Pattern → Prop where
  | undefined : Impossible .undefined
  | notANumber {x : Binary64} (nan : x.isNaN = true) : Impossible (.literal (.number x))

/-- A part with nothing but objects around it. What stands inside a sequence is not required, since
a list may have no items. -/
inductive RequiredBy : Pattern → Pattern → Prop where
  | whole {pattern : Pattern} : RequiredBy pattern pattern
  | field {fields : List (String × Pattern)} {name : String} {field part : Pattern}
      (declared : (name, field) ∈ fields) (inside : RequiredBy part field) :
      RequiredBy part (.object fields)

mutual

/-- A value made after a pattern: as little as it asks for, and null where it asks for nothing that
there is. -/
def sample : Pattern → Value
  | .anyString => .string ""
  | .anyNumber => .number .zero
  | .anyBoolean => .boolean false
  | .literal value => .scalar value
  | .sequence _ => .list []
  | .object fields => .ofPairs (sampleFields fields)
  | .undefined => .null

def sampleFields : List (String × Pattern) → List (String × Value)
  | [] => []
  | (name, field) :: fields => (name, field.sample) :: sampleFields fields

end

variable {pattern part field : Pattern} {fields : List (String × Pattern)} {name : String}
  {value : Value}

theorem Impossible.accepts_eq_false (impossible : pattern.Impossible) (value : Value) :
    pattern.accepts value = false := by
  cases impossible with
  | undefined => rfl
  | @notANumber x nan =>
    cases value with
    | scalar found =>
      cases found with
      | number y => simp [accepts, Scalar.equalsValue, Scalar.equal, Binary64.equal, nan]
      | null | boolean | string => rfl
    | list | record => rfl

/-- A value that a pattern accepts has a part for everything that the pattern requires. -/
theorem RequiredBy.satisfiable (required : part.RequiredBy pattern)
    (satisfiable : pattern.Satisfiable) : part.Satisfiable := by
  induction required with
  | whole => exact satisfiable
  | field declared inside ih =>
    obtain ⟨value, accepted⟩ := satisfiable
    obtain ⟨_, all⟩ := accepts_object_iff.mp accepted
    obtain ⟨_, inner, _, own⟩ := all _ _ declared
    exact ih ⟨inner, own⟩

theorem sampleFields_eq_map :
    sampleFields fields = fields.map fun entry => (entry.1, entry.2.sample) := by
  induction fields with
  | nil => rfl
  | cons entry fields ih => rw [sampleFields, ih, List.map_cons]

theorem member?_sample (names : (fields.map Prod.fst).Nodup) (declared : (name, field) ∈ fields) :
    (object fields).sample.member? name = some field.sample := by
  rw [sample, sampleFields_eq_map]
  apply (Fields.find?_ofList_eq_some_iff ?distinct).mpr
  case distinct => simpa [Function.comp_def] using names
  exact List.mem_map.mpr ⟨(name, field), declared, rfl⟩

/-- Where nothing impossible is required, the sample is accepted. -/
theorem accepts_sample (once : pattern.DeclaresOnce)
    (possible : ∀ part : Pattern, part.RequiredBy pattern → ¬ part.Impossible) :
    pattern.accepts pattern.sample = true := by
  induction pattern with
  | anyString | anyNumber | anyBoolean | sequence => rfl
  | literal value =>
    apply value.equal_self_iff.mpr
    intro x same
    have proper := possible _ .whole
    by_contra nan
    exact proper (same ▸ .notANumber (eq_true_of_ne_false nan))
  | object fields ih =>
    cases once with
    | object names once =>
      refine accepts_object_iff.mpr ⟨rfl, ?_⟩
      intro name field declared
      have inside : ∀ part : Pattern, part.RequiredBy field → ¬ part.Impossible := fun part required =>
        possible part (.field declared required)
      have satisfiable : field ≠ .undefined := by
        intro same
        exact inside field .whole (same ▸ .undefined)
      refine ⟨isUndefined_eq_false_iff.mpr satisfiable, field.sample, ?_, ?_⟩
      · exact member?_sample names declared
      · exact ih name field declared (once name field declared) inside
  | undefined => exact absurd .undefined (possible _ .whole)

/-- A pattern that declares no name twice is satisfiable when nothing impossible is required by it,
and one that requires something unsatisfiable, at whatever depth, accepts nothing. -/
theorem satisfiable_iff (once : pattern.DeclaresOnce) :
    (pattern.Satisfiable ↔ ∀ part : Pattern, part.RequiredBy pattern → ¬ part.Impossible) ∧
      ∀ part : Pattern, part.RequiredBy pattern → ¬ part.Satisfiable →
        ∀ value, pattern.accepts value = false := by
  refine ⟨⟨?_, ?_⟩, ?_⟩
  · intro satisfiable part required impossible
    obtain ⟨value, accepted⟩ := required.satisfiable satisfiable
    rw [impossible.accepts_eq_false] at accepted
    exact Bool.false_ne_true accepted
  · intro possible
    exact ⟨pattern.sample, accepts_sample once possible⟩
  · intro part required unsatisfiable value
    by_contra accepted
    exact unsatisfiable (required.satisfiable ⟨value, eq_true_of_ne_false accepted⟩)

/-- What is undefined does no harm inside a sequence; a literal that is no number does, even inside
two objects. -/
theorem satisfiable_iff_nested :
    (object [("a", .sequence .undefined), ("b", .object [("c", .anyNumber)])]).DeclaresOnce ∧
      (∀ part : Pattern, part.RequiredBy
          (object [("a", .sequence .undefined), ("b", .object [("c", .anyNumber)])]) →
        ¬ part.Impossible) ∧
      (object [("a", .sequence .undefined), ("b", .object [("c", .number .nan)])]).DeclaresOnce ∧
      ¬ (object [("a", .sequence .undefined), ("b", .object [("c", .number .nan)])]).Satisfiable := by
  have once : ∀ leaf : Pattern, leaf.DeclaresOnce →
      (object [("a", .sequence .undefined), ("b", .object [("c", leaf)])]).DeclaresOnce := by
    intro leaf own
    have inner : (object [("c", leaf)]).DeclaresOnce := by
      refine .object (by simp) ?_
      intro name field declared
      cases List.mem_singleton.mp declared
      exact own
    refine .object (by simp) ?_
    intro name field declared
    rcases List.mem_cons.mp declared with first | declared
    · cases first
      exact .sequence .undefined
    · cases List.mem_singleton.mp declared
      exact inner
  have proper := once .anyNumber .anyNumber
  have improper := once (.number .nan) .literal
  have accepted : (object [("a", .sequence .undefined), ("b", .object [("c", .anyNumber)])]).accepts
      (.ofPairs [("a", .list []), ("b", .ofPairs [("c", .ofInt 1)])]) = true := by decide
  refine ⟨proper, (satisfiable_iff proper).1.mp ⟨_, accepted⟩, improper, ?_⟩
  intro satisfiable
  have possible := (satisfiable_iff improper).1.mp satisfiable
  have inside : RequiredBy (.number .nan) (object [("c", .number .nan)]) :=
    .field List.mem_cons_self .whole
  exact possible _ (.field (List.mem_cons_of_mem _ List.mem_cons_self) inside) (.notANumber rfl)

end Conform.Pattern
