import Conform.Proofs.Location

/-!
Rearranged patterns: in what order an object declares its fields, and how often it repeats a
declaration, decides which failure comes first but not what the failures are.
-/

namespace Conform.Pattern

/-- Patterns that come out of each other by moving and repeating declarations in objects, at any
depth and any number of times. -/
inductive Rearranged : Pattern → Pattern → Prop where
  | refl {pattern : Pattern} : Rearranged pattern pattern
  | symm {pattern other : Pattern} (same : Rearranged pattern other) : Rearranged other pattern
  | trans {first second third : Pattern} (left : Rearranged first second)
      (right : Rearranged second third) : Rearranged first third
  | moved {fields others : List (String × Pattern)} (moves : fields.Perm others) :
      Rearranged (.object fields) (.object others)
  | repeated {fields : List (String × Pattern)} {name : String} {field : Pattern}
      (declared : (name, field) ∈ fields) :
      Rearranged (.object fields) (.object ((name, field) :: fields))
  | sequence {element other : Pattern} (inside : Rearranged element other) :
      Rearranged (.sequence element) (.sequence other)
  | field {before after : List (String × Pattern)} {name : String} {field other : Pattern}
      (inside : Rearranged field other) :
      Rearranged (.object (before ++ (name, field) :: after))
        (.object (before ++ (name, other) :: after))

/-- Patterns by which the same is wrong with every value, in whatever order it is found. -/
structure SameFailures (pattern other : Pattern) : Prop where
  isUndefined : pattern.isUndefined = other.isUndefined
  mem_iff : ∀ value mismatch, mismatch ∈ pattern.failures value ↔ mismatch ∈ other.failures value

variable {pattern other third : Pattern} {fields others : List (String × Pattern)} {name : String}
  {value : Value} {mismatch : Mismatch}

namespace SameFailures

theorem refl (pattern : Pattern) : SameFailures pattern pattern :=
  ⟨rfl, fun _ _ => Iff.rfl⟩

theorem symm (same : SameFailures pattern other) : SameFailures other pattern :=
  ⟨same.isUndefined.symm, fun value mismatch => (same.mem_iff value mismatch).symm⟩

theorem trans (first : SameFailures pattern other) (second : SameFailures other third) :
    SameFailures pattern third where
  isUndefined := first.isUndefined.trans second.isUndefined
  mem_iff value mismatch := (first.mem_iff value mismatch).trans (second.mem_iff value mismatch)

theorem sequence (same : SameFailures pattern other) :
    SameFailures (.sequence pattern) (.sequence other) := by
  refine ⟨rfl, ?_⟩
  intro value mismatch
  cases value with
  | list items => simp only [failures, List.mem_flatMap, List.mem_map, same.mem_iff]
  | scalar | record => rfl

/-- As fields of one name they have the same failures, those of a missing field included. -/
theorem mem_fieldFailures (same : SameFailures pattern other)
    (wrong : mismatch ∈ fieldFailures name pattern pattern.failures value) :
    mismatch ∈ fieldFailures name other other.failures value := by
  rw [fieldFailures, same.isUndefined] at wrong
  rw [fieldFailures]
  split
  · rename_i undefined
    rwa [if_pos undefined] at wrong
  · rename_i satisfiable
    rw [if_neg satisfiable] at wrong
    cases found : value.member? name with
    | none => rwa [found] at wrong
    | some part =>
      rw [found] at wrong
      obtain ⟨inner, own, told⟩ := List.mem_map.mp wrong
      exact List.mem_map.mpr ⟨inner, (same.mem_iff part inner).mp own, told⟩

/-- What is wrong by an object is wrong by one that declares a counterpart of every field. -/
theorem mem_failures_object (counterparts : ∀ name field, (name, field) ∈ fields →
      ∃ other, (name, other) ∈ others ∧ SameFailures field other)
    (wrong : mismatch ∈ (object fields).failures value) :
    mismatch ∈ (object others).failures value := by
  cases container : value.isPrimitive with
  | true =>
    rw [failures, if_pos container] at wrong ⊢
    exact wrong
  | false =>
    obtain ⟨name, field, declared, own⟩ := (Pattern.mem_failures_object container).mp wrong
    obtain ⟨other, there, same⟩ := counterparts name field declared
    exact (Pattern.mem_failures_object container).mpr
      ⟨name, other, there, same.mem_fieldFailures own⟩

theorem object (left : ∀ name field, (name, field) ∈ fields →
      ∃ other, (name, other) ∈ others ∧ SameFailures field other)
    (right : ∀ name other, (name, other) ∈ others →
      ∃ field, (name, field) ∈ fields ∧ SameFailures other field) :
    SameFailures (.object fields) (.object others) :=
  ⟨rfl, fun _ _ => ⟨mem_failures_object left, mem_failures_object right⟩⟩

/-- Only the declarations count, and neither their order nor their number. -/
theorem object_of_mem_iff (same : ∀ entry, entry ∈ fields ↔ entry ∈ others) :
    SameFailures (.object fields) (.object others) :=
  object (fun _ field declared => ⟨field, (same _).mp declared, refl field⟩)
    (fun _ other declared => ⟨other, (same _).mpr declared, refl other⟩)

theorem accepts_eq (same : SameFailures pattern other) (value : Value) :
    pattern.accepts value = other.accepts value := by
  rw [Bool.eq_iff_iff, ← failures_eq_nil_iff, ← failures_eq_nil_iff,
    List.eq_nil_iff_forall_not_mem, List.eq_nil_iff_forall_not_mem]
  exact forall_congr' fun mismatch => not_congr (same.mem_iff value mismatch)

end SameFailures

theorem exists_counterpart {before after : List (String × Pattern)}
    (inside : SameFailures pattern other) (entry : String) (field : Pattern)
    (declared : (entry, field) ∈ before ++ (name, pattern) :: after) :
    ∃ image, (entry, image) ∈ before ++ (name, other) :: after ∧ SameFailures field image := by
  rcases List.mem_append.mp declared with early | declared
  · exact ⟨field, List.mem_append_left _ early, .refl field⟩
  · rcases List.mem_cons.mp declared with same | late
    · cases same
      exact ⟨other, List.mem_append_right _ List.mem_cons_self, inside⟩
    · exact ⟨field, List.mem_append_right _ (List.mem_cons_of_mem _ late), .refl field⟩

/-- Moving and repeating declarations leaves the failures as they are. -/
theorem Rearranged.sameFailures (rearranged : Rearranged pattern other) :
    SameFailures pattern other := by
  induction rearranged with
  | refl => exact .refl _
  | symm same ih => exact ih.symm
  | trans left right first second => exact first.trans second
  | moved moves => exact .object_of_mem_iff fun entry => moves.mem_iff
  | repeated declared =>
    refine .object_of_mem_iff fun entry => ?_
    rw [List.mem_cons]
    exact ⟨.inr, fun either => either.elim (fun same => same ▸ declared) id⟩
  | sequence inside ih => exact ih.sequence
  | field inside ih => exact .object (exists_counterpart ih) (exists_counterpart ih.symm)

/-- Rearranged patterns accept the same values. With every other value the same failures come up, so
that explanations may only differ in which of them they report, the one that is found first. -/
theorem rearranged_alike (rearranged : Rearranged pattern other) (value : Value) :
    pattern.accepts value = other.accepts value ∧
      (pattern.explain value = none ↔ other.explain value = none) ∧
      ∀ mismatch, mismatch ∈ pattern.failures value ↔ mismatch ∈ other.failures value := by
  have same := rearranged.sameFailures
  have accepts := same.accepts_eq value
  refine ⟨accepts, ?_, same.mem_iff value⟩
  rw [explain_eq_none_iff, explain_eq_none_iff, accepts]

/-- A field repeated inside a sequence and another one moved before it: what is wrong with the other
is found first, and the item that is wrong in two places has the same failures still. -/
theorem rearranged_alike_nested :
    Rearranged
        (.object [("a", .sequence (.object [("x", .anyNumber), ("y", .anyString)])),
          ("b", .anyNumber)])
        (.object [("b", .anyNumber),
          ("a", .sequence (.object [("y", .anyString), ("x", .anyNumber), ("y", .anyString)])),
          ("b", .anyNumber)]) ∧
      (object [("a", .sequence (.object [("x", .anyNumber), ("y", .anyString)])),
          ("b", .anyNumber)]).explain
          (.ofPairs [("a", .list [.ofPairs [("y", .null), ("x", .string "")]]),
            ("b", .string "")]) =
        some ⟨⟨[.field "a", .index 0, .field "x"]⟩, .expectedKind .number .string⟩ ∧
      (object [("b", .anyNumber),
          ("a", .sequence (.object [("y", .anyString), ("x", .anyNumber), ("y", .anyString)])),
          ("b", .anyNumber)]).explain
          (.ofPairs [("a", .list [.ofPairs [("y", .null), ("x", .string "")]]),
            ("b", .string "")]) =
        some ⟨⟨[.field "b"]⟩, .expectedKind .number .string⟩ ∧
      ∀ mismatch,
        mismatch ∈ (object [("a", .sequence (.object [("x", .anyNumber), ("y", .anyString)])),
            ("b", .anyNumber)]).failures
            (.ofPairs [("a", .list [.ofPairs [("y", .null), ("x", .string "")]]),
              ("b", .string "")]) ↔
          mismatch ∈ (object [("b", .anyNumber),
            ("a", .sequence (.object [("y", .anyString), ("x", .anyNumber), ("y", .anyString)])),
            ("b", .anyNumber)]).failures
            (.ofPairs [("a", .list [.ofPairs [("y", .null), ("x", .string "")]]),
              ("b", .string "")]) := by
  have inner : Rearranged (.object [("x", .anyNumber), ("y", .anyString)])
      (.object [("y", .anyString), ("x", .anyNumber), ("y", .anyString)]) := .repeated (by simp)
  have outer : Rearranged
      (.object [("a", .sequence (.object [("x", .anyNumber), ("y", .anyString)])),
        ("b", .anyNumber)])
      (.object [("b", .anyNumber),
        ("a", .sequence (.object [("y", .anyString), ("x", .anyNumber), ("y", .anyString)])),
        ("b", .anyNumber)]) :=
    .trans (@Rearranged.field [] _ _ _ _ (.sequence inner)) (.repeated (by simp))
  exact ⟨outer, rfl, rfl, (rearranged_alike outer _).2.2⟩

end Conform.Pattern
