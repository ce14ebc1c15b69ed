import Conform.Path
import Conform.Proofs.Induction
import Mathlib.Data.List.Forall2

/-!
Equality of content, part by part. Only what is no number differs from itself, so the values that
equal themselves are those without it.
-/

namespace Conform

theorem Scalar.equal_self_iff (value : Scalar) :
    value.equal value = true ↔ ∀ x, value = .number x → x.isNaN = false := by
  cases value with
  | number x => simp [equal, Binary64.equal]
  | null | boolean | string => simp [equal]

theorem Scalar.equal_comm (value other : Scalar) : value.equal other = other.equal value := by
  cases value <;> cases other <;> simp only [equal]
  case number x y =>
    rw [Bool.eq_iff_iff, Binary64.equal_iff, Binary64.equal_iff, and_left_comm,
      eq_comm (a := x.position)]
  all_goals exact Bool.beq_comm

/-- Equality of kind and payload, as numbers have it: one that is none differs from itself, and the
zeros are equal whatever their sign. -/
inductive Scalar.Same : Scalar → Scalar → Prop where
  | null : Same .null .null
  | boolean {value : Bool} : Same (.boolean value) (.boolean value)
  | string {text : String} : Same (.string text) (.string text)
  | number {x : Binary64} (proper : x.isNaN = false) : Same (.number x) (.number x)
  | zero {x y : Binary64} (first : x.rank = 0) (second : y.rank = 0) :
      Same (.number x) (.number y)

private theorem Binary64.equal_iff_eq_or_zero {x y : Binary64} :
    x.equal y = true ↔ x.isNaN = false ∧ x = y ∨ x.rank = 0 ∧ y.rank = 0 := by
  obtain ⟨signX, rankX, _⟩ := x
  obtain ⟨signY, rankY, _⟩ := y
  cases signX <;> cases signY <;> simp only [equal, isNaN, infinityRank] <;> grind

theorem Scalar.equal_iff_same {value other : Scalar} :
    value.equal other = true ↔ value.Same other := by
  constructor
  · intro equal
    cases value with
    | null =>
      cases other with
      | null => exact .null
      | boolean | number | string => cases equal
    | boolean value =>
      cases other with
      | boolean other => exact beq_iff_eq.mp equal ▸ .boolean
      | null | number | string => cases equal
    | string text =>
      cases other with
      | string other => exact beq_iff_eq.mp equal ▸ .string
      | null | boolean | number => cases equal
    | number x =>
      cases other with
      | number y =>
        obtain ⟨proper, rfl⟩ | ⟨first, second⟩ := Binary64.equal_iff_eq_or_zero.mp equal
        · exact .number proper
        · exact .zero first second
      | null | boolean | string => cases equal
  · intro same
    cases same with
    | null => rfl
    | boolean | string => exact beq_self_eq_true _
    | number proper => exact Binary64.equal_iff_eq_or_zero.mpr (.inl ⟨proper, rfl⟩)
    | zero first second => exact Binary64.equal_iff_eq_or_zero.mpr (.inr ⟨first, second⟩)

theorem Scalar.Same.trans {first second third : Scalar} (left : first.Same second)
    (right : second.Same third) : first.Same third := by
  cases left with
  | null | boolean | string | number proper => exact right
  | zero first second =>
    cases right with
    | number proper => exact .zero first second
    | zero _ third => exact .zero first third

namespace Value

theorem equal_list_iff {items others : List Value} :
    (list items).equal (list others) = true ↔
      List.Forall₂ (fun item other => item.equal other = true) items others := by
  rw [equal]
  induction items generalizing others with
  | nil => cases others <;> simp [equalItems]
  | cons item items ih => cases others <;> simp [equalItems, ih]

/-- Maps are equal when the same names are found in both, with equal values under them. -/
theorem equalFields_iff {lower upper : Option String} {fields : Fields Value lower}
    {others : Fields Value upper} :
    equalFields fields others = true ↔
      fields.SameNames others ∧ ∀ name part counterpart, fields.find? name = some part →
        others.find? name = some counterpart → part.equal counterpart = true := by
  induction fields generalizing upper with
  | nil =>
    cases others with
    | nil => simp [equalFields, Fields.SameNames, Fields.find?]
    | cons other above counterpart others =>
      refine iff_of_false Bool.false_ne_true fun both => ?_
      simpa [Fields.find?] using both.1 other
  | cons name above part rest ih =>
    cases others with
    | nil =>
      refine iff_of_false Bool.false_ne_true fun both => ?_
      simpa [Fields.find?] using both.1 name
    | cons other otherAbove counterpart others =>
      rw [equalFields, Bool.and_eq_true, Bool.and_eq_true, beq_iff_eq, ih]
      constructor
      · rintro ⟨⟨rfl, own⟩, same, behind⟩
        exact ⟨Fields.sameNames_cons_iff.mpr same, Fields.forall_common_cons.mpr ⟨own, behind⟩⟩
      · rintro ⟨same, equal⟩
        obtain rfl := same.first_eq
        obtain ⟨own, behind⟩ := Fields.forall_common_cons.mp equal
        exact ⟨⟨rfl, own⟩, Fields.sameNames_cons_iff.mp same, behind⟩

theorem equal_record_iff {fields others : Fields Value none} :
    (record fields).equal (record others) = true ↔
      fields.SameNames others ∧ ∀ name part counterpart, fields.find? name = some part →
        others.find? name = some counterpart → part.equal counterpart = true := by
  rw [equal, equalFields_iff]

/-- A value in which every number, at whatever depth, is one. -/
def WithoutNaN (value : Value) : Prop :=
  ∀ path x, value.at? path = some (.number x) → x.isNaN = false

theorem at?_cons (value : Value) (segment : Segment) (segments : List Segment) :
    value.at? ⟨segment :: segments⟩ =
      (value.step? segment).bind fun part => part.at? ⟨segments⟩ := rfl

/-- Apart from the value itself, its numbers are those of its parts. -/
theorem withoutNaN_iff {value : Value} :
    value.WithoutNaN ↔ (∀ x, value = .number x → x.isNaN = false) ∧
      ∀ segment part, value.step? segment = some part → part.WithoutNaN := by
  constructor
  · intro all
    refine ⟨fun x same => all ⟨[]⟩ x (congrArg some same), ?_⟩
    intro segment part found path x there
    apply all ⟨segment :: path.segments⟩ x
    rw [at?_cons, found]
    exact there
  · rintro ⟨own, parts⟩ ⟨segments⟩ x there
    cases segments with
    | nil => exact own x (Option.some.inj there)
    | cons segment segments =>
      rw [at?_cons] at there
      obtain ⟨part, found, inside⟩ := Option.bind_eq_some_iff.mp there
      exact parts segment part found ⟨segments⟩ x inside

theorem withoutNaN_list_iff {items : List Value} :
    (list items).WithoutNaN ↔ ∀ item ∈ items, item.WithoutNaN := by
  rw [withoutNaN_iff]
  constructor
  · rintro ⟨_, parts⟩ item member
    obtain ⟨position, found⟩ := List.mem_iff_getElem?.mp member
    exact parts (.index position) item found
  · intro all
    refine ⟨fun _ => nofun, ?_⟩
    intro segment part found
    cases segment with
    | field name => cases found
    | index position => exact all part (List.mem_of_getElem? found)

theorem withoutNaN_record_iff {fields : Fields Value none} :
    (record fields).WithoutNaN ↔
      ∀ name part, fields.find? name = some part → part.WithoutNaN := by
  rw [withoutNaN_iff]
  constructor
  · rintro ⟨_, parts⟩ name part found
    exact parts (.field name) part found
  · intro all
    refine ⟨fun _ => nofun, ?_⟩
    intro segment part found
    cases segment with
    | field name => exact all name part found
    | index position => cases found

/-- A value equals itself when it has no number that is none. -/
theorem equal_self_iff (value : Value) : value.equal value = true ↔ value.WithoutNaN := by
  induction value with
  | scalar value =>
    rw [equal, Scalar.equal_self_iff, withoutNaN_iff]
    constructor
    · intro own
      refine ⟨fun x same => own x (Value.scalar.inj same), ?_⟩
      intro segment part found
      cases segment <;> cases found
    · rintro ⟨own, _⟩ x rfl
      exact own x rfl
  | list items ih =>
    rw [equal_list_iff, List.forall₂_same, withoutNaN_list_iff]
    exact forall₂_congr ih
  | record fields ih =>
    rw [equal_record_iff, withoutNaN_record_iff]
    constructor
    · rintro ⟨_, equal⟩ name part found
      exact (ih name part found).mp (equal name part part found found)
    · intro all
      refine ⟨fun _ => rfl, ?_⟩
      intro name part counterpart found again
      obtain rfl := Option.some.inj (found.symm.trans again)
      exact (ih name part found).mpr (all name part found)

end Value

end Conform
