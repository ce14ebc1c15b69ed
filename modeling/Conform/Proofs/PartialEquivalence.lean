import Conform.Proofs.Digest
import Conform.Proofs.Unsigned
import Conform.Shared.Registers
import Mathlib.Data.List.Nodup

/-!
Equality of values and equality of patterns are partial equivalences: symmetric, transitive, and
reflexive on everything that holds nothing that is no number. In what order a record lists its
entries does not matter for it; in what order an object declares its fields does.
-/

namespace Conform

/-- A comparison that is symmetric and transitive, and by which exactly what is proper equals
itself. -/
structure PartialEquivalence {α : Type} (equal : α → α → Bool) (proper : α → Prop) : Prop where
  symm : ∀ first second, equal first second = equal second first
  trans : ∀ {first second third}, equal first second = true → equal second third = true →
    equal first third = true
  self_iff : ∀ whole, equal whole whole = true ↔ proper whole

/-- Such is a comparison of normal forms that holds of proper ones only. -/
theorem PartialEquivalence.of_normal {α : Type} {equal : α → α → Bool} {proper : α → Prop}
    {normal : α → α} (proper_iff : ∀ {whole}, proper (normal whole) ↔ proper whole)
    (equal_iff : ∀ {first second},
      equal first second = true ↔ proper first ∧ normal first = normal second) :
    PartialEquivalence equal proper := by
  have other : ∀ {first second}, proper first → normal first = normal second → proper second := by
    intro first second own same
    exact proper_iff.mp (same ▸ proper_iff.mpr own)
  refine ⟨fun first second => ?symm, fun left right => ?trans, fun whole => ?self⟩
  case symm =>
    rw [Bool.eq_iff_iff, equal_iff, equal_iff]
    constructor
    · rintro ⟨own, same⟩
      exact ⟨other own same, same.symm⟩
    · rintro ⟨own, same⟩
      exact ⟨other own same, same.symm⟩
  case trans =>
    obtain ⟨own, same⟩ := equal_iff.mp left
    obtain ⟨_, again⟩ := equal_iff.mp right
    exact equal_iff.mpr ⟨own, same.trans again⟩
  case self =>
    rw [equal_iff]
    exact and_iff_left rfl

theorem Value.equal_partialEquivalence : PartialEquivalence equal WithoutNaN :=
  .of_normal withoutNaN_unsigned_iff equal_iff_unsigned

theorem Pattern.equal_partialEquivalence : PartialEquivalence equal WithoutNaN :=
  .of_normal withoutNaN_unsigned_iff equal_iff_unsigned

/-- Entries that are moved make the same record. -/
theorem Value.ofPairs_eq_of_perm {entries others : List (String × Value)}
    (distinct : (entries.map Prod.fst).Nodup) (moves : entries.Perm others) :
    ofPairs entries = ofPairs others := by
  have distinctOthers := (moves.map Prod.fst).nodup_iff.mp distinct
  apply congrArg record
  apply Fields.ofList_eq_of_prevails
  intro name part
  rw [prevails_iff_mem distinct, prevails_iff_mem distinctOthers, moves.mem_iff]

/-- Moved entries stand in the same order of names only where they were. -/
theorem eq_of_perm_of_names_eq {α : Type} {entries others : List (String × α)}
    (distinct : (entries.map Prod.fst).Nodup) (moves : entries.Perm others)
    (names : entries.map Prod.fst = others.map Prod.fst) : entries = others := by
  apply List.ext_getElem moves.length_eq
  intro position inside insideToo
  have same : entries[position].1 = others[position].1 := by
    have named := congrArg (fun names => names[position]?) names
    simpa [inside, insideToo] using named
  have member : others[position] ∈ entries := moves.mem_iff.mpr (List.getElem_mem insideToo)
  exact List.inj_on_of_nodup_map distinct (List.getElem_mem inside) member same

/-- Objects that declare the same fields in different orders are not equal. -/
theorem Pattern.equal_object_iff_of_perm {fields others : List (String × Pattern)}
    (distinct : (fields.map Prod.fst).Nodup) (moves : fields.Perm others) :
    (object fields).equal (object others) = true ↔
      fields = others ∧ (object fields).WithoutNaN := by
  constructor
  · intro equal
    have proper := (equal_iff_unsigned.mp equal).1
    refine ⟨eq_of_perm_of_names_eq distinct moves ?_, proper⟩
    have named := (equal_object_iff.mp equal).imp fun _ _ both => both.1
    rw [← List.forall₂_eq_eq_eq, List.forall₂_map_left_iff, List.forall₂_map_right_iff]
    exact named
  · rintro ⟨rfl, proper⟩
    exact (equal_partialEquivalence.self_iff _).mpr proper

open Registers in
/-- The laws of equality. It is a partial equivalence on values and on patterns, and sees everything
but the signs of zeros. A store compares a record entry by entry with another one, and its verdict
is the same whichever of the two it goes through and in whatever order. Moved entries make an equal
record, and moved declarations another object. That both sides are one node is no shortcut. -/
theorem equality_laws :
    PartialEquivalence Value.equal Value.WithoutNaN ∧
    PartialEquivalence Pattern.equal Pattern.WithoutNaN ∧
    (∀ value other : Value,
      value.equal other = true ↔ value.WithoutNaN ∧ value.unsigned = other.unsigned) ∧
    (∀ pattern other : Pattern,
      pattern.equal other = true ↔ pattern.WithoutNaN ∧ pattern.unsigned = other.unsigned) ∧
    (∀ first second : Blueprint, first.Distinct → second.Distinct →
      first.digest .equal second.content = first.content.equal second.content ∧
        second.digest .equal first.content = first.content.equal second.content) ∧
    (∀ entries others : List (String × Value), (entries.map Prod.fst).Nodup →
      entries.Perm others →
        ((Value.ofPairs entries).equal (.ofPairs others) = true ↔
          (Value.ofPairs entries).WithoutNaN)) ∧
    (∀ fields others : List (String × Pattern), (fields.map Prod.fst).Nodup →
      fields.Perm others →
        ((Pattern.object fields).equal (.object others) = true ↔
          fields = others ∧ (Pattern.object fields).WithoutNaN)) ∧
    ∀ (machine : Machine) (register : String) (value : Shared),
      machine.get? register = some value →
        ∃ holds, machine.step? (.equal register register) = some (.verdict holds, machine) ∧
          (holds = true ↔ value.content.WithoutNaN) := by
  refine ⟨Value.equal_partialEquivalence, Pattern.equal_partialEquivalence,
    fun _ _ => Value.equal_iff_unsigned, fun _ _ => Pattern.equal_iff_unsigned, ?_, ?_,
    fun _ _ => Pattern.equal_object_iff_of_perm, ?_⟩
  · intro first second distinct distinctToo
    rw [Digest.equal_computes.digest_eq distinct, Digest.equal_computes.digest_eq distinctToo]
    exact ⟨rfl, Value.equal_partialEquivalence.symm _ _⟩
  · intro entries others distinct moves
    rw [← Value.ofPairs_eq_of_perm distinct moves]
    exact Value.equal_self_iff _
  · intro machine register value read
    refine ⟨value.content.equal value.content, ?_, Value.equal_self_iff _⟩
    simp [Machine.step?, read]

open Registers in
/-- Entries in another order and zeros with other signs leave a record equal. Declarations in
another order make another object, and what is no number does not equal itself. -/
theorem equality_laws_reordered :
    (Blueprint.record [("b", .list [.scalar (.number .negativeZero)]),
        ("a", .scalar .null)]).digest .equal
          (.ofPairs [("a", .null), ("b", .list [.number .zero])]) = true ∧
      (Value.ofPairs [("b", .boolean true), ("a", .null)]).equal
        (.ofPairs [("a", .null), ("b", .boolean true)]) = true ∧
      (Pattern.object [("a", .anyNumber), ("b", .anyString)]).equal
        (.object [("b", .anyString), ("a", .anyNumber)]) ≠ true ∧
      ∃ holds machine, machine = Machine.initial.writeNew (some "x")
          (Shared.mintScalar (.number .nan)) ∧
        machine.step? (.equal "x" "x") = some (.verdict holds, machine) ∧ holds ≠ true := by
  obtain ⟨_, _, _, _, stores, entries, fields, registers⟩ := equality_laws
  refine ⟨?_, ?_, ?_, ?_⟩
  · have first : (Blueprint.record [("b", .list [.scalar (.number .negativeZero)]),
        ("a", .scalar .null)]).Distinct := by
      refine .record (by decide) (List.forall_mem_cons.mpr ⟨.list ?_, ?_⟩)
      · exact List.forall_mem_singleton.mpr .scalar
      · exact List.forall_mem_singleton.mpr .scalar
    have second : (Blueprint.record [("a", .scalar .null),
        ("b", .list [.scalar (.number .zero)])]).Distinct := by
      refine .record (by decide) (List.forall_mem_cons.mpr ⟨.scalar, ?_⟩)
      exact List.forall_mem_singleton.mpr (.list (List.forall_mem_singleton.mpr .scalar))
    exact (stores _ _ first second).1.trans (by decide)
  · exact (entries _ _ (by decide) (.swap _ _ [])).mpr ((Value.equal_self_iff _).mp (by decide))
  · intro equal
    obtain ⟨same, _⟩ := (fields _ _ (by decide) (.swap _ _ [])).mp equal
    simp at same
  · obtain ⟨holds, answered, proper⟩ := registers (Machine.initial.writeNew (some "x")
      (Shared.mintScalar (.number .nan))) "x" _ rfl
    refine ⟨holds, _, rfl, answered, fun holds => ?_⟩
    cases proper.mp holds ⟨[]⟩ .nan rfl

end Conform
