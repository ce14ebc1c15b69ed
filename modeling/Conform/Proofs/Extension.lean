import Conform.Proofs.Overwriting
import Conform.Proofs.Precedence

/-!
Extension: a value with further fields, at any depth, is accepted wherever the value without them
is. No pattern asks for a field to be left out.
-/

namespace Conform

namespace Value

/-- The second value has all that the first has: the same scalar, a list of as many items that each
have all that their counterparts have, or a record with at least the same fields, likewise. -/
inductive ExtendedBy : Value → Value → Prop where
  | scalar {value : Scalar} : ExtendedBy (.scalar value) (.scalar value)
  | list {items others : List Value} (length : items.length = others.length)
      (each : ∀ (position : Nat) (item other : Value), items[position]? = some item →
        others[position]? = some other → ExtendedBy item other) :
      ExtendedBy (.list items) (.list others)
  | record {fields others : Fields Value none}
      (kept : ∀ name part, fields.find? name = some part → (others.find? name).isSome = true)
      (each : ∀ name part other, fields.find? name = some part →
        others.find? name = some other → ExtendedBy part other) :
      ExtendedBy (.record fields) (.record others)

variable {value wider part : Value} {name : String}

theorem ExtendedBy.isPrimitive_eq (extended : value.ExtendedBy wider) :
    wider.isPrimitive = value.isPrimitive := by
  cases extended <;> rfl

theorem ExtendedBy.scalar_eq {scalar : Scalar} (extended : (Value.scalar scalar).ExtendedBy wider) :
    wider = .scalar scalar := by
  cases extended
  rfl

/-- What a name stands for is extended by what it stands for in the wider value. -/
theorem ExtendedBy.member? (extended : value.ExtendedBy wider)
    (found : value.member? name = some part) :
    ∃ other, wider.member? name = some other ∧ part.ExtendedBy other := by
  cases extended with
  | scalar => cases found
  | @list items others length each =>
    obtain ⟨position, read, there⟩ := Option.bind_eq_some_iff.mp found
    obtain ⟨inside, _⟩ := List.getElem?_eq_some_iff.mp there
    have counterpart : others[position]? = some others[position] :=
      List.getElem?_eq_getElem (length ▸ inside)
    refine ⟨others[position], ?_, each position part _ there counterpart⟩
    rw [Value.member?, read]
    exact counterpart
  | record kept each =>
    obtain ⟨other, there⟩ := Option.isSome_iff_exists.mp (kept name part found)
    exact ⟨other, there, each name part other found there⟩

/-- Items of the wider list stand where items of the other stand. -/
theorem ExtendedBy.exists_item {items others : List Value} {other : Value}
    (extended : (Value.list items).ExtendedBy (.list others)) (member : other ∈ others) :
    ∃ item ∈ items, item.ExtendedBy other := by
  cases extended with
  | list length each =>
    obtain ⟨position, there⟩ := List.mem_iff_getElem?.mp member
    obtain ⟨inside, _⟩ := List.getElem?_eq_some_iff.mp there
    have counterpart : items[position]? = some items[position] :=
      List.getElem?_eq_getElem (length ▸ inside)
    exact ⟨_, List.mem_of_getElem? counterpart, each position _ other counterpart there⟩

theorem extendedBy_ofPairs {pairs others : List (String × Value)}
    (distinct : (pairs.map Prod.fst).Nodup) (distinctOthers : (others.map Prod.fst).Nodup)
    (each : ∀ name part, (name, part) ∈ pairs →
      ∃ other, (name, other) ∈ others ∧ part.ExtendedBy other) :
    (ofPairs pairs).ExtendedBy (ofPairs others) := by
  have counterpart : ∀ name part, (Fields.ofList pairs).find? name = some part →
      ∃ other, (Fields.ofList others).find? name = some other ∧ part.ExtendedBy other := by
    intro name part found
    have member := (Fields.find?_ofList_eq_some_iff distinct).mp found
    obtain ⟨other, there, extended⟩ := each name part member
    exact ⟨other, (Fields.find?_ofList_eq_some_iff distinctOthers).mpr there, extended⟩
  refine .record ?_ ?_
  · intro name part found
    obtain ⟨other, there, _⟩ := counterpart name part found
    exact Option.isSome_iff_exists.mpr ⟨other, there⟩
  · intro name part other found there
    obtain ⟨image, here, extended⟩ := counterpart name part found
    cases there.symm.trans here
    exact extended

end Value

namespace Pattern

variable {pattern : Pattern} {value wider : Value}

/-- Further fields never make a value unacceptable. -/
theorem accepts_of_extendedBy (extended : value.ExtendedBy wider)
    (accepted : pattern.accepts value = true) : pattern.accepts wider = true := by
  induction pattern generalizing value wider with
  | anyString =>
    obtain ⟨text, rfl⟩ := accepts_anyString_iff.mp accepted
    rwa [extended.scalar_eq]
  | anyBoolean =>
    obtain ⟨answer, rfl⟩ := accepts_anyBoolean_iff.mp accepted
    rwa [extended.scalar_eq]
  | anyNumber =>
    obtain ⟨x, rfl, _⟩ := accepts_anyNumber_iff.mp accepted
    rwa [extended.scalar_eq]
  | literal expected =>
    cases value with
    | scalar value => rwa [extended.scalar_eq]
    | list | record => cases accepted
  | sequence element ih =>
    obtain ⟨items, rfl, all⟩ := accepts_sequence_iff.mp accepted
    cases extended with
    | @list _ others length each =>
      apply accepts_list_iff.mpr
      intro other member
      obtain ⟨item, inside, extended⟩ := Value.ExtendedBy.exists_item (.list length each) member
      exact ih extended (all item inside)
  | object fields ih =>
    obtain ⟨container, all⟩ := accepts_object_iff.mp accepted
    refine accepts_object_iff.mpr ⟨extended.isPrimitive_eq.trans container, ?_⟩
    intro name field declared
    obtain ⟨satisfiable, part, found, own⟩ := all name field declared
    obtain ⟨other, there, inside⟩ := extended.member? found
    exact ⟨satisfiable, other, there, ih name field declared inside own⟩
  | undefined => cases accepted

/-- Further fields in an item of a list and beside the list, under an object that names a position. -/
theorem accepts_of_extendedBy_item :
    (Value.ofPairs [("a", .list [.null, .ofPairs [("x", .ofInt 1)]])]).ExtendedBy
        (.ofPairs [("b", .null), ("a", .list [.null, .ofPairs [("x", .ofInt 1), ("y", .null)]])]) ∧
      (object [("a", .object [("1", .object [("x", .anyNumber)])])]).accepts
        (.ofPairs [("a", .list [.null, .ofPairs [("x", .ofInt 1)]])]) = true ∧
      (object [("a", .object [("1", .object [("x", .anyNumber)])])]).accepts
        (.ofPairs [("b", .null), ("a", .list [.null, .ofPairs [("x", .ofInt 1), ("y", .null)]])]) =
          true := by
  have record : (Value.ofPairs [("x", .ofInt 1)]).ExtendedBy
      (.ofPairs [("x", .ofInt 1), ("y", .null)]) := by
    apply Value.extendedBy_ofPairs (by decide) (by decide)
    intro name part member
    cases List.mem_singleton.mp member
    exact ⟨_, List.mem_cons_self, .scalar⟩
  have list : (Value.list [.null, .ofPairs [("x", .ofInt 1)]]).ExtendedBy
      (.list [.null, .ofPairs [("x", .ofInt 1), ("y", .null)]]) := by
    refine .list rfl ?_
    intro position item other found there
    match position with
    | 0 =>
      cases found
      cases there
      exact .scalar
    | 1 =>
      cases found
      cases there
      exact record
    | _ + 2 => cases found
  have whole : (Value.ofPairs [("a", .list [.null, .ofPairs [("x", .ofInt 1)]])]).ExtendedBy
      (.ofPairs [("b", .null), ("a", .list [.null, .ofPairs [("x", .ofInt 1), ("y", .null)]])]) := by
    apply Value.extendedBy_ofPairs (by decide) (by decide)
    intro name part member
    cases List.mem_singleton.mp member
    exact ⟨_, List.mem_cons_of_mem _ List.mem_cons_self, list⟩
  have accepted : (object [("a", .object [("1", .object [("x", .anyNumber)])])]).accepts
      (.ofPairs [("a", .list [.null, .ofPairs [("x", .ofInt 1)]])]) = true := by decide
  exact ⟨whole, accepted, accepts_of_extendedBy whole accepted⟩

end Pattern

end Conform
