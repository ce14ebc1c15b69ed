import Conform.Proofs.Overwriting
import Conform.Proofs.Unsigned

/-!
Values and patterns whose names, at whatever depth, are all of one kind.
-/

namespace Conform

/-- Every field that a path goes through has a usable name. -/
def Path.NamedBy (usable : String → Prop) (path : Path) : Prop :=
  ∀ name, .field name ∈ path.segments → usable name

/-- Every field in a value, at whatever depth, has a usable name. -/
def Value.NamedBy (usable : String → Prop) (value : Value) : Prop :=
  ∀ path part, value.at? path = some part → path.NamedBy usable

/-- Every field that a pattern declares, at whatever depth, has a usable name. -/
def Pattern.NamedBy (usable : String → Prop) (pattern : Pattern) : Prop :=
  ∀ fields, Relation.ReflTransGen IsPart (.object fields) pattern →
    ∀ entry ∈ fields, usable entry.1

variable {usable : String → Prop}

namespace Value

variable {value : Value}

/-- Apart from the first steps, the names in a value are those in its parts. -/
theorem namedBy_iff : value.NamedBy usable ↔ ∀ segment part, value.step? segment = some part →
    Path.NamedBy usable ⟨[segment]⟩ ∧ part.NamedBy usable := by
  constructor
  · intro all segment part found
    constructor
    · exact all ⟨[segment]⟩ part (by rw [at?_cons, found]; rfl)
    · intro path goal there name inside
      refine all ⟨segment :: path.segments⟩ goal ?_ name (List.mem_cons_of_mem _ inside)
      rw [at?_cons, found]
      exact there
  · rintro parts ⟨segments⟩ goal there name inside
    cases segments with
    | nil => cases inside
    | cons segment segments =>
      rw [at?_cons] at there
      obtain ⟨part, found, behind⟩ := Option.bind_eq_some_iff.mp there
      obtain ⟨first, rest⟩ := parts segment part found
      rcases List.mem_cons.mp inside with same | later
      · exact first name (List.mem_singleton.mpr same)
      · exact rest ⟨segments⟩ goal behind name later

theorem namedBy_scalar (content : Scalar) : (scalar content).NamedBy usable := by
  rw [namedBy_iff]
  intro segment part found
  cases segment <;> cases found

theorem namedBy_list_iff {items : List Value} :
    (list items).NamedBy usable ↔ ∀ item ∈ items, item.NamedBy usable := by
  rw [namedBy_iff]
  constructor
  · intro parts item member
    obtain ⟨position, found⟩ := List.mem_iff_getElem?.mp member
    exact (parts (.index position) item found).2
  · intro all segment part found
    cases segment with
    | field name => cases found
    | index position => exact ⟨by simp [Path.NamedBy], all part (List.mem_of_getElem? found)⟩

theorem namedBy_record_iff {fields : Fields Value none} :
    (record fields).NamedBy usable ↔
      ∀ name part, fields.find? name = some part → usable name ∧ part.NamedBy usable := by
  rw [namedBy_iff]
  constructor
  · intro parts name part found
    obtain ⟨first, rest⟩ := parts (.field name) part found
    exact ⟨first name List.mem_cons_self, rest⟩
  · intro all segment part found
    cases segment with
    | field name =>
      obtain ⟨first, rest⟩ := all name part found
      exact ⟨by simpa [Path.NamedBy] using first, rest⟩
    | index position => cases found

theorem namedBy_ofPairs {entries : List (String × Value)}
    (parts : ∀ entry ∈ entries, usable entry.1 ∧ entry.2.NamedBy usable) :
    (ofPairs entries).NamedBy usable := by
  refine namedBy_record_iff.mpr fun name part found => ?_
  exact parts (name, part) (Fields.find?_ofList_iff_prevails.mp found).mem

end Value

namespace Pattern

variable {pattern : Pattern}

theorem namedBy_of_leaf (leaf : ∀ part : Pattern, ¬ part.IsPart pattern)
    (plain : ∀ fields, pattern ≠ .object fields) : pattern.NamedBy usable := by
  intro fields inside
  rcases inside.cases_tail with same | ⟨part, _, step⟩
  · exact absurd same (plain fields)
  · exact absurd step (leaf part)

theorem namedBy_sequence_iff : (sequence pattern).NamedBy usable ↔ pattern.NamedBy usable := by
  constructor
  · intro all fields inside
    exact all fields (inside.tail .element)
  · intro all fields inside
    rcases inside.cases_tail with same | ⟨part, inside, step⟩
    · cases same
    · cases step
      exact all fields inside

theorem namedBy_object_iff {fields : List (String × Pattern)} :
    (object fields).NamedBy usable ↔
      ∀ entry ∈ fields, usable entry.1 ∧ entry.2.NamedBy usable := by
  constructor
  · intro all entry declared
    refine ⟨all fields .refl entry declared, fun others inside => ?_⟩
    exact all others (inside.tail (.field declared))
  · intro parts others inside
    rcases inside.cases_tail with same | ⟨part, inside, step⟩
    · cases same
      exact fun entry declared => (parts entry declared).1
    · cases step with
      | field declared => exact (parts _ declared).2 others inside

end Pattern

end Conform
