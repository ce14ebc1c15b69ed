import Conform.Proofs.Exchange
import Conform.Proofs.Precedence
import Mathlib.Data.List.Forall2
import Mathlib.Logic.Relation

/-!
The sign of zero is all that equality does not see. Two values, or two patterns, are equal when they
are the same without the signs of their zeros and the first holds nothing that is no number.
-/

namespace Conform

/-- The number, with zero in the place of negative zero. -/
def Binary64.unsigned (x : Binary64) : Binary64 :=
  if x = negativeZero then zero else x

/-- The scalar, with zero in the place of negative zero. -/
def Scalar.unsigned : Scalar → Scalar
  | .number x => .number x.unsigned
  | value => value

/-- The value without the sign of any zero in it. -/
def Value.unsigned (value : Value) : Value :=
  value.mapScalars Scalar.unsigned

namespace Pattern

mutual

/-- Applies a function to all literals of a pattern. The shapes around them stay as they are. -/
def mapLiterals (f : Scalar → Scalar) : Pattern → Pattern
  | .literal value => .literal (f value)
  | .sequence element => .sequence (mapLiterals f element)
  | .object fields => .object (mapFieldLiterals f fields)
  | pattern => pattern

def mapFieldLiterals (f : Scalar → Scalar) : List (String × Pattern) → List (String × Pattern)
  | [] => []
  | (name, field) :: fields => (name, mapLiterals f field) :: mapFieldLiterals f fields

end

/-- The pattern without the sign of any zero in it. -/
def unsigned (pattern : Pattern) : Pattern :=
  pattern.mapLiterals Scalar.unsigned

/-- A pattern in which every literal number, at whatever depth, is one. -/
def WithoutNaN (pattern : Pattern) : Prop :=
  ∀ x, Relation.ReflTransGen IsPart (.number x) pattern → x.isNaN = false

end Pattern

namespace Binary64

theorem equal_iff_unsigned {x y : Binary64} :
    x.equal y = true ↔ x.isNaN = false ∧ x.unsigned = y.unsigned := by
  obtain ⟨signX, rankX, _⟩ := x
  obtain ⟨signY, rankY, _⟩ := y
  cases signX <;> cases signY <;>
    simp only [equal, isNaN, infinityRank, unsigned, negativeZero, zero] <;> grind

@[simp]
theorem isNaN_unsigned (x : Binary64) : x.unsigned.isNaN = x.isNaN := by
  rw [unsigned]
  split
  · rename_i same
    rw [same]
    rfl
  · rfl

@[simp]
theorem unsigned_unsigned (x : Binary64) : x.unsigned.unsigned = x.unsigned := by
  by_cases same : x = negativeZero
  · rw [same]
    rfl
  · simp [unsigned, same]

end Binary64

namespace Scalar

@[simp]
theorem unsigned_unsigned (value : Scalar) : value.unsigned.unsigned = value.unsigned := by
  cases value <;> simp [unsigned]

theorem equal_iff_unsigned {value other : Scalar} :
    value.equal other = true ↔
      (∀ x, value = .number x → x.isNaN = false) ∧ value.unsigned = other.unsigned := by
  cases value <;> cases other <;> simp [equal, unsigned, Binary64.equal_iff_unsigned]

theorem proper_unsigned_iff {value : Scalar} :
    (∀ x, value.unsigned = .number x → x.isNaN = false) ↔
      ∀ x, value = .number x → x.isNaN = false := by
  cases value <;> simp [unsigned]

/-- Equality does not see the sign of zero. -/
theorem equal_unsigned (value other : Scalar) :
    value.unsigned.equal other.unsigned = value.equal other := by
  rw [Bool.eq_iff_iff, equal_iff_unsigned, equal_iff_unsigned, proper_unsigned_iff,
    unsigned_unsigned, unsigned_unsigned]

end Scalar

/-- Lists whose entries are related when the first of them is proper and both have one image. -/
private theorem forall₂_iff_map_eq {α β : Type} {related : α → α → Prop} {proper : α → Prop}
    {f : α → β} {items others : List α}
    (each : ∀ item ∈ items, ∀ other, related item other ↔ proper item ∧ f item = f other) :
    List.Forall₂ related items others ↔
      (∀ item ∈ items, proper item) ∧ items.map f = others.map f := by
  induction items generalizing others with
  | nil => cases others <;> simp
  | cons item items ih =>
    obtain ⟨own, behind⟩ := List.forall_mem_cons.mp each
    cases others with
    | nil => simp
    | cons other others =>
      rw [List.forall₂_cons, own other, ih behind, List.forall_mem_cons, List.map_cons,
        List.map_cons, List.cons.injEq]
      tauto

/-- Maps have the same image when they have the same names, with values of one image under them. -/
theorem Fields.map_eq_map_iff {α β : Type} {lower : Option String} {f : α → β}
    {fields others : Fields α lower} :
    fields.map f = others.map f ↔
      fields.SameNames others ∧ ∀ name value other, fields.find? name = some value →
        others.find? name = some other → f value = f other := by
  constructor
  · intro same
    have images : ∀ name, (fields.find? name).map f = (others.find? name).map f := by
      intro name
      rw [← find?_map, ← find?_map, same]
    refine ⟨fun name => ?_, fun name value other found there => ?_⟩
    · have both := congrArg Option.isSome (images name)
      rwa [Option.isSome_map, Option.isSome_map] at both
    · have image := images name
      rw [found, there] at image
      exact Option.some.inj image
  · rintro ⟨same, images⟩
    apply ext
    intro name
    rw [find?_map, find?_map]
    have both := same name
    cases found : fields.find? name with
    | none =>
      rw [found] at both
      have absent := Option.isSome_eq_false_iff.mp both.symm
      rw [Option.isNone_iff_eq_none.mp absent]
    | some value =>
      rw [found] at both
      obtain ⟨other, there⟩ := Option.isSome_iff_exists.mp both.symm
      rw [there, Option.map_some, Option.map_some, images name value other found there]

namespace Value

variable {value other : Value}

theorem unsigned_list (items : List Value) : (list items).unsigned = .list (items.map unsigned) :=
  mapScalars_list Scalar.unsigned items

theorem unsigned_record (fields : Fields Value none) :
    (record fields).unsigned = .record (fields.map unsigned) :=
  mapScalars_record Scalar.unsigned fields

theorem withoutNaN_scalar_iff {value : Scalar} :
    (scalar value).WithoutNaN ↔ ∀ x, value = .number x → x.isNaN = false := by
  rw [← equal_self_iff, equal, Scalar.equal_self_iff]

theorem withoutNaN_unsigned_iff : value.unsigned.WithoutNaN ↔ value.WithoutNaN := by
  induction value with
  | scalar value =>
    rw [unsigned, mapScalars, withoutNaN_scalar_iff, withoutNaN_scalar_iff,
      Scalar.proper_unsigned_iff]
  | list items ih =>
    rw [unsigned_list, withoutNaN_list_iff, withoutNaN_list_iff, List.forall_mem_map]
    exact forall₂_congr ih
  | record fields ih =>
    rw [unsigned_record, withoutNaN_record_iff, withoutNaN_record_iff]
    simp only [Fields.find?_map, Option.map_eq_some_iff, forall_exists_index, and_imp,
      forall_apply_eq_imp_iff₂]
    exact forall₃_congr ih

/-- Values are equal when they are the same but for the signs of zeros, and hold nothing that is no
number. In records with the same names a part and its counterpart are found together. -/
theorem equal_iff_unsigned :
    value.equal other = true ↔ value.WithoutNaN ∧ value.unsigned = other.unsigned := by
  induction value generalizing other with
  | scalar value =>
    cases other with
    | scalar other =>
      rw [equal, Scalar.equal_iff_unsigned, withoutNaN_scalar_iff, unsigned, unsigned, mapScalars,
        mapScalars, scalar.injEq]
    | list | record => exact iff_of_false Bool.false_ne_true (by rintro ⟨_, ⟨⟩⟩)
  | list items ih =>
    cases other with
    | list others =>
      rw [equal_list_iff, withoutNaN_list_iff, unsigned_list, unsigned_list, list.injEq]
      exact forall₂_iff_map_eq fun item member other => ih item member
    | scalar | record => exact iff_of_false Bool.false_ne_true (by rintro ⟨_, ⟨⟩⟩)
  | record fields ih =>
    cases other with
    | record others =>
      rw [equal_record_iff, withoutNaN_record_iff, unsigned_record, unsigned_record, record.injEq,
        Fields.map_eq_map_iff]
      constructor
      · rintro ⟨same, equal⟩
        refine ⟨fun name part found => ?_, same, fun name part counterpart found there => ?_⟩
        · obtain ⟨counterpart, there⟩ := (Fields.sameNames_iff.mp same).1 name part found
          exact ((ih name part found).mp (equal name part counterpart found there)).1
        · exact ((ih name part found).mp (equal name part counterpart found there)).2
      · rintro ⟨proper, same, images⟩
        refine ⟨same, fun name part counterpart found there => ?_⟩
        exact (ih name part found).mpr
          ⟨proper name part found, images name part counterpart found there⟩
    | scalar | list => exact iff_of_false Bool.false_ne_true (by rintro ⟨_, ⟨⟩⟩)

end Value

namespace Pattern

variable {pattern other : Pattern} {fields others : List (String × Pattern)}

theorem unsigned_literal (value : Scalar) :
    (literal value).unsigned = .literal value.unsigned := rfl

theorem unsigned_sequence (element : Pattern) :
    (sequence element).unsigned = .sequence element.unsigned := rfl

theorem mapLiterals_object (f : Scalar → Scalar) (fields : List (String × Pattern)) :
    (object fields).mapLiterals f =
      .object (fields.map fun entry => (entry.1, entry.2.mapLiterals f)) := by
  have all : mapFieldLiterals f fields =
      fields.map fun entry => (entry.1, entry.2.mapLiterals f) := by
    induction fields with
    | nil => rfl
    | cons entry fields ih => rw [mapFieldLiterals, ih, List.map_cons]
  rw [mapLiterals, all]

theorem unsigned_object (fields : List (String × Pattern)) :
    (object fields).unsigned = .object (fields.map fun entry => (entry.1, entry.2.unsigned)) :=
  mapLiterals_object Scalar.unsigned fields

/-- Objects are equal when they declare the same names in the same order, with equal patterns. -/
theorem equal_object_iff : (object fields).equal (object others) = true ↔
    List.Forall₂ (fun entry other => entry.1 = other.1 ∧ entry.2.equal other.2 = true)
      fields others := by
  rw [equal]
  induction fields generalizing others with
  | nil => cases others <;> simp [equalFields]
  | cons entry fields ih => cases others <;> simp [equalFields, ih]

/-- Apart from the pattern itself, its literals are those of its parts. -/
theorem withoutNaN_iff : pattern.WithoutNaN ↔
    (∀ x, pattern = .number x → x.isNaN = false) ∧
      ∀ part : Pattern, part.IsPart pattern → part.WithoutNaN := by
  constructor
  · intro all
    refine ⟨fun x same => all x (same ▸ .refl), fun part inside x there => ?_⟩
    exact all x (there.tail inside)
  · rintro ⟨own, parts⟩ x there
    rcases there.cases_tail with same | ⟨part, there, inside⟩
    · exact own x same
    · exact parts part inside x there

theorem withoutNaN_of_leaf (plain : ∀ x, pattern ≠ .number x)
    (leaf : ∀ part : Pattern, ¬ part.IsPart pattern) : pattern.WithoutNaN := by
  refine withoutNaN_iff.mpr ⟨fun x same => ?_, fun part inside => ?_⟩
  · exact absurd same (plain x)
  · exact absurd inside (leaf part)

theorem withoutNaN_literal_iff {value : Scalar} :
    (literal value).WithoutNaN ↔ ∀ x, value = .number x → x.isNaN = false := by
  rw [withoutNaN_iff, and_iff_left nofun]
  simp [number]

theorem withoutNaN_sequence_iff : (sequence pattern).WithoutNaN ↔ pattern.WithoutNaN := by
  rw [withoutNaN_iff, and_iff_right nofun]
  constructor
  · intro parts
    exact parts pattern .element
  · rintro own part ⟨⟩
    exact own

theorem withoutNaN_object_iff :
    (object fields).WithoutNaN ↔ ∀ entry ∈ fields, entry.2.WithoutNaN := by
  rw [withoutNaN_iff, and_iff_right nofun]
  constructor
  · intro parts entry declared
    exact parts entry.2 (.field declared)
  · intro all part inside
    cases inside with
    | field declared => exact all _ declared

theorem withoutNaN_unsigned_iff : pattern.unsigned.WithoutNaN ↔ pattern.WithoutNaN := by
  induction pattern with
  | anyString | anyNumber | anyBoolean | undefined => rfl
  | literal value =>
    rw [unsigned_literal, withoutNaN_literal_iff, withoutNaN_literal_iff,
      Scalar.proper_unsigned_iff]
  | sequence element ih =>
    rw [unsigned_sequence, withoutNaN_sequence_iff, withoutNaN_sequence_iff, ih]
  | object fields ih =>
    rw [unsigned_object, withoutNaN_object_iff, withoutNaN_object_iff, List.forall_mem_map]
    exact forall₂_congr fun entry declared => ih entry.1 entry.2 declared

/-- Patterns are equal when they are the same but for the signs of zeros, declarations in the same
order, and hold no literal that is no number. -/
theorem equal_iff_unsigned :
    pattern.equal other = true ↔ pattern.WithoutNaN ∧ pattern.unsigned = other.unsigned := by
  induction pattern generalizing other with
  | anyString | anyNumber | anyBoolean | undefined =>
    refine Iff.trans ?_ (iff_and_self.mpr fun _ => withoutNaN_of_leaf nofun nofun)
    cases other <;> simp [equal, unsigned, mapLiterals]
  | literal value =>
    cases other with
    | literal other =>
      rw [equal, Scalar.equal_iff_unsigned, withoutNaN_literal_iff, unsigned_literal,
        unsigned_literal, literal.injEq]
    | _ => exact iff_of_false nofun nofun
  | sequence element ih =>
    cases other with
    | sequence other =>
      rw [equal, ih, withoutNaN_sequence_iff, unsigned_sequence, unsigned_sequence,
        sequence.injEq]
    | _ => exact iff_of_false nofun nofun
  | object fields ih =>
    cases other with
    | object others =>
      rw [equal_object_iff, withoutNaN_object_iff, unsigned_object, unsigned_object, object.injEq]
      apply forall₂_iff_map_eq
      intro entry declared other
      rw [ih entry.1 entry.2 declared, Prod.mk.injEq]
      exact and_left_comm
    | _ => exact iff_of_false nofun nofun

end Pattern

end Conform
