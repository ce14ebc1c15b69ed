import Conform.Proofs.Fields
import Conform.Proofs.Location
import Mathlib.Data.List.Forall2

/-!
Items under the numerals of their positions: to an object a list is the record of its items, and a
sequence asks of a list what the object does that declares the numerals of all its positions.
-/

namespace Conform

namespace Value

/-- The items of a list, each beside the numeral of its position. -/
def numbering (items : List Value) : List (String × Value) :=
  items.zipIdx.map fun entry => (toString entry.2, entry.1)

/-- The record of the items of a list, each under the numeral of its position. -/
def numbered (items : List Value) : Value :=
  .ofPairs (numbering items)

end Value

/-- The object that declares one pattern under the numerals of the first positions. -/
def Pattern.indexed (element : Pattern) (count : Nat) : Pattern :=
  .object ((List.range count).map fun position => (toString position, element))

/-- The same failure of a list and of the record of its items: one of the whole, or one of an item,
which a position leads to in the list and the numeral of that position in the record. -/
inductive Mismatch.Alike : Mismatch → Mismatch → Prop where
  | whole {reason : Reason} : Alike (.here reason) (.here reason)
  | item {position : Nat} {mismatch : Mismatch} :
      Alike (mismatch.under (.index position)) (mismatch.under (.field (toString position)))

section

variable {items : List Value} {name : String}

namespace Value

theorem getElem?_numbering (position : Nat) :
    (numbering items)[position]? = items[position]?.map fun item => (toString position, item) := by
  rw [numbering, List.getElem?_map, List.getElem?_zipIdx, Option.map_map]
  simp [Function.comp_def]

theorem getElem?_names_numbering (position : Nat) :
    ((numbering items).map Prod.fst)[position]? =
      items[position]?.map fun _ => toString position := by
  rw [List.getElem?_map, getElem?_numbering, Option.map_map, Function.comp_def]

variable (addressable : items.length ≤ 0x10000000000000000)

include addressable

theorem hasMember_numeral {position : Nat} {part : Value} (found : items[position]? = some part) :
    (list items).HasMember (toString position) (.index position) part := by
  obtain ⟨inside, _⟩ := List.getElem?_eq_some_iff.mp found
  have narrow : position ≤ 0xffffffffffffffff := by omega
  exact .item narrow found

theorem member?_list_iff {part : Value} :
    (list items).member? name = some part ↔
      ∃ position : Nat, toString position = name ∧ items[position]? = some part := by
  constructor
  · intro found
    obtain ⟨position, same, _, there⟩ := (hasMember_of_member? found).exists_position
    exact ⟨position, same, there⟩
  · intro numeral
    obtain ⟨position, rfl, there⟩ := numeral
    exact (hasMember_numeral addressable there).member?_eq.1

/-- A name stands for the same part in a list and in the record of its items. -/
theorem member?_numbered : (numbered items).member? name = (list items).member? name := by
  change (Fields.ofList (numbering items)).find? name = _
  rw [Fields.find?_ofList]
  cases last : Fields.lastIndex? name ((numbering items).map Prod.fst) with
  | some position =>
    have there := Fields.getElem?_lastIndex? last
    rw [getElem?_names_numbering] at there
    obtain ⟨item, found, same⟩ := Option.map_eq_some_iff.mp there
    have member := (member?_list_iff addressable).mpr ⟨position, same, found⟩
    rw [member, Option.bind_some, getElem?_numbering, found]
    rfl
  | none =>
    cases found : (list items).member? name with
    | none => rfl
    | some part =>
      obtain ⟨position, same, there⟩ := (member?_list_iff addressable).mp found
      have named : name ∈ (numbering items).map Prod.fst := by
        apply List.mem_of_getElem? (i := position)
        rw [getElem?_names_numbering, there, Option.map_some, same]
      exact absurd named (Fields.not_mem_of_lastIndex? last)

end Value

namespace Pattern

variable {element : Pattern} {fields : List (String × Pattern)}

theorem fieldFailures_alike (addressable : items.length ≤ 0x10000000000000000) {field : Pattern}
    {own : Value → List Mismatch} :
    List.Forall₂ Mismatch.Alike (fieldFailures name field own (.list items))
      (fieldFailures name field own (.numbered items)) := by
  rw [fieldFailures, fieldFailures, Value.member?_numbered addressable]
  by_cases undefined : field.isUndefined = true
  · rw [if_pos undefined, if_pos undefined]
    exact .cons .whole .nil
  · rw [if_neg undefined, if_neg undefined]
    cases found : (Value.list items).member? name with
    | none => exact .cons .whole .nil
    | some part =>
      obtain ⟨position, rfl, step, _⟩ := (Value.hasMember_of_member? found).exists_position
      rw [step]
      apply List.forall₂_map_left_iff.mpr
      apply List.forall₂_map_right_iff.mpr
      exact List.forall₂_same.mpr fun _ _ => .item

theorem failuresOfFields_alike (addressable : items.length ≤ 0x10000000000000000) :
    List.Forall₂ Mismatch.Alike (failuresOfFields fields (.list items))
      (failuresOfFields fields (.numbered items)) := by
  induction fields with
  | nil => exact .nil
  | cons entry fields ih => exact List.rel_append (fieldFailures_alike addressable) ih

private theorem rel_head? {α β : Type} {related : α → β → Prop} {left : List α} {right : List β}
    (both : List.Forall₂ related left right) : Option.Rel related left.head? right.head? := by
  cases both with
  | nil => exact .none
  | cons first rest => exact .some first

/-- To an object a list is the record of its items under the numerals of their positions. No list
has more items than there are positions, which are 64 bits wide. -/
theorem object_list_as_record (fields : List (String × Pattern)) (items : List Value)
    (addressable : items.length ≤ 0x10000000000000000) :
    (object fields).accepts (.list items) = (object fields).accepts (.numbered items) ∧
      Option.Rel Mismatch.Alike ((object fields).explain (.list items))
        ((object fields).explain (.numbered items)) := by
  constructor
  · rw [Bool.eq_iff_iff, accepts_object_iff, accepts_object_iff]
    simp only [Value.member?_numbered addressable]
    rfl
  · rw [explain_eq_head?, explain_eq_head?]
    exact rel_head? (failuresOfFields_alike addressable)

/-- A position in the list is a field of that name in the record, and steps further in are the
same. -/
theorem object_list_as_record_nested :
    ([.string "a", .list [.boolean true, .null]] : List Value).length ≤ 0x10000000000000000 ∧
      (object [("1", .sequence .anyBoolean), ("01", .anyString)]).explain
          (.list [.string "a", .list [.boolean true, .null]]) =
        some ⟨⟨[.index 1, .index 1]⟩, .expectedKind .boolean .null⟩ ∧
      (object [("1", .sequence .anyBoolean), ("01", .anyString)]).explain
          (.numbered [.string "a", .list [.boolean true, .null]]) =
        some ⟨⟨[.field "1", .index 1]⟩, .expectedKind .boolean .null⟩ ∧
      Option.Rel Mismatch.Alike
        ((object [("1", .sequence .anyBoolean), ("01", .anyString)]).explain
          (.list [.string "a", .list [.boolean true, .null]]))
        ((object [("1", .sequence .anyBoolean), ("01", .anyString)]).explain
          (.numbered [.string "a", .list [.boolean true, .null]])) :=
  ⟨by decide, rfl, rfl, (object_list_as_record _ _ (by decide)).2⟩

theorem failures_indexed (addressable : items.length ≤ 0x10000000000000000)
    (satisfiable : element ≠ .undefined) :
    (indexed element items.length).failures (.list items) =
      (sequence element).failures (.list items) := by
  rw [indexed, failures_object rfl, failures, List.range_eq_range', ← List.zipIdx_map_snd,
    List.map_map, List.flatMap_map]
  apply List.flatMap_congr
  intro entry member
  have found := List.mem_zipIdx_iff_getElem?.mp member
  exact fieldFailures_of_hasMember satisfiable (Value.hasMember_numeral addressable found)

/-- What nothing satisfies is asked of every item by the one and of every numeral by the other. -/
theorem accepts_sequence_undefined :
    (sequence .undefined).accepts (.list items) =
      (indexed .undefined items.length).accepts (.list items) := by
  cases items with
  | nil => rfl
  | cons item items =>
    rw [indexed, List.length_cons, List.range_succ_eq_map]
    rfl

/-- A sequence asks of a list what the object does that declares its pattern for every position.
What nothing satisfies is refused by both, though for reasons that are given at different places. -/
theorem sequence_list_as_object (element : Pattern) (items : List Value)
    (addressable : items.length ≤ 0x10000000000000000) :
    (sequence element).accepts (.list items) =
        (indexed element items.length).accepts (.list items) ∧
      (element ≠ .undefined → (sequence element).explain (.list items) =
        (indexed element items.length).explain (.list items)) := by
  constructor
  · by_cases undefined : element = .undefined
    · rw [undefined]
      exact accepts_sequence_undefined
    · rw [Bool.eq_iff_iff, ← failures_eq_nil_iff, ← failures_eq_nil_iff,
        failures_indexed addressable undefined]
  · intro satisfiable
    rw [explain_eq_head?, explain_eq_head?, failures_indexed addressable satisfiable]

example :
    (sequence .undefined).explain (.list [.null]) = some ⟨⟨[.index 0]⟩, .unsatisfiable⟩ ∧
      (indexed .undefined 1).explain (.list [.null]) = some ⟨⟨[]⟩, .undefinedField "0"⟩ :=
  ⟨rfl, rfl⟩

/-- The second of three items fails both, at the same place. -/
theorem sequence_list_as_object_second :
    ([.ofInt 1, .string "a", .null] : List Value).length ≤ 0x10000000000000000 ∧
      anyNumber ≠ .undefined ∧
      (sequence .anyNumber).explain (.list [.ofInt 1, .string "a", .null]) =
        some ⟨⟨[.index 1]⟩, .expectedKind .number .string⟩ ∧
      (sequence .anyNumber).accepts (.list [.ofInt 1, .string "a", .null]) =
        (indexed .anyNumber 3).accepts (.list [.ofInt 1, .string "a", .null]) ∧
      (sequence .anyNumber).explain (.list [.ofInt 1, .string "a", .null]) =
        (indexed .anyNumber 3).explain (.list [.ofInt 1, .string "a", .null]) := by
  obtain ⟨accepts, explain⟩ := sequence_list_as_object .anyNumber [.ofInt 1, .string "a", .null]
    (by decide)
  exact ⟨by decide, nofun, rfl, accepts, explain nofun⟩

end Pattern

end

end Conform
