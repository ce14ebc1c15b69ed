import Conform.Proofs.Equality
import Conform.Proofs.NameOrder

/-!
Places of values in the order of a depth-first walk: a whole comes before its parts, and with a part
comes all that is inside it before the next part. Items follow each other by position and fields by
the bytes of their names.
-/

namespace Conform

/-- Of two parts of one value the first comes earlier. -/
inductive Segment.Precedes : Segment → Segment → Prop where
  | index {position other : Nat} (before : position < other) :
      Precedes (.index position) (.index other)
  | field {name other : String} (before : Text.bytes name < Text.bytes other) :
      Precedes (.field name) (.field other)

namespace Path

/-- A depth-first walk comes to the first of two places earlier: the one lies on the way to the
other, or where the ways part it takes the earlier step. -/
def Precedes (path other : Path) : Prop :=
  List.Lex Segment.Precedes path.segments other.segments

/-- A path inside a part, told of the whole. -/
def under (segment : Segment) (path : Path) : Path :=
  ⟨segment :: path.segments⟩

theorem Precedes.asymm {path other : Path} (before : path.Precedes other) :
    ¬ other.Precedes path := by
  apply List.lex_asymm ?_ before
  intro first second before after
  cases before with
  | index before =>
    cases after with
    | index after => exact Nat.lt_asymm before after
  | field before =>
    cases after with
    | field after => exact List.lt_asymm before after

end Path

namespace Value

/-- The parts of a value with the steps to them, in their order. -/
def children : Value → List (Segment × Value)
  | .scalar _ => []
  | .list items => items.zipIdx.map fun entry => (.index entry.2, entry.1)
  | .record fields => fields.toList.map fun entry => (.field entry.1, entry.2)

mutual

/-- The places of a value with what is found there, in the order of a depth-first walk. -/
def places : Value → List (Path × Value)
  | .scalar value => [(⟨[]⟩, .scalar value)]
  | .list items => (⟨[]⟩, .list items) :: placesOfItems 0 items
  | .record fields => (⟨[]⟩, .record fields) :: placesOfFields fields

def placesOfItems : Nat → List Value → List (Path × Value)
  | _, [] => []
  | position, item :: items =>
    item.places.map (Prod.map (.under (.index position)) id) ++ placesOfItems (position + 1) items

def placesOfFields {lower : Option String} : Fields Value lower → List (Path × Value)
  | .nil => []
  | .cons name _ value rest =>
    value.places.map (Prod.map (.under (.field name)) id) ++ placesOfFields rest

end

variable {value part : Value} {segment : Segment} {path : Path} {items : List Value}

theorem mem_children_iff : (segment, part) ∈ value.children ↔ value.step? segment = some part := by
  cases value with
  | scalar value => cases segment <;> simp [children, step?]
  | list items =>
    cases segment with
    | field name => simp [children, step?]
    | index position => simp [children, step?, List.mem_zipIdx_iff_getElem?]
  | record fields =>
    cases segment with
    | index position => simp [children, step?]
    | field name => simp [children, step?, Fields.mem_toList_iff]

theorem children_ordered (value : Value) :
    value.children.Pairwise fun child other => child.1.Precedes other.1 := by
  cases value with
  | scalar value => exact .nil
  | list items =>
    have ascending : (items.zipIdx.map Prod.snd).Pairwise (· < ·) := by
      rw [List.zipIdx_map_snd]
      exact List.pairwise_lt_range' 1
    apply List.pairwise_map.mpr
    exact (List.pairwise_map.mp ascending).imp .index
  | record fields =>
    apply List.pairwise_map.mpr
    exact fields.inNameOrder_toList.imp .field

private theorem placesOfItems_eq_flatMap (position : Nat) :
    placesOfItems position items = (items.zipIdx position).flatMap fun entry =>
      entry.1.places.map (Prod.map (.under (.index entry.2)) id) := by
  induction items generalizing position with
  | nil => rfl
  | cons item items ih => rw [placesOfItems, ih, List.zipIdx_cons, List.flatMap_cons]

private theorem placesOfFields_eq_flatMap {lower : Option String} {fields : Fields Value lower} :
    placesOfFields fields = fields.toList.flatMap fun entry =>
      entry.2.places.map (Prod.map (.under (.field entry.1)) id) := by
  induction fields with
  | nil => rfl
  | cons name above value rest ih => rw [placesOfFields, ih, Fields.toList, List.flatMap_cons]

/-- The walk takes a whole first and then one part after the other. -/
theorem places_eq (value : Value) :
    value.places = (⟨[]⟩, value) :: value.children.flatMap fun child =>
      child.2.places.map (Prod.map (.under child.1) id) := by
  cases value with
  | scalar value => rfl
  | list items => rw [places, children, List.flatMap_map, placesOfItems_eq_flatMap]
  | record fields => rw [places, children, List.flatMap_map, placesOfFields_eq_flatMap]

/-- Induction with a hypothesis for every part. -/
theorem induction_parts {motive : Value → Prop}
    (whole : ∀ value, (∀ segment part, value.step? segment = some part → motive part) →
      motive value) (value : Value) : motive value := by
  induction value with
  | scalar value =>
    apply whole
    intro segment part found
    cases segment <;> cases found
  | list items ih =>
    apply whole
    intro segment part found
    cases segment with
    | field name => cases found
    | index position => exact ih part (List.mem_of_getElem? found)
  | record fields ih =>
    apply whole
    intro segment part found
    cases segment with
    | index position => cases found
    | field name => exact ih name part found

/-- A place other than the whole is a place of one part. -/
theorem mem_places_cons_iff {segments : List Segment} :
    (⟨segment :: segments⟩, part) ∈ value.places ↔
      ∃ child, value.step? segment = some child ∧ (⟨segments⟩, part) ∈ child.places := by
  rw [places_eq, List.mem_cons, List.mem_flatMap]
  constructor
  · intro listed
    rcases listed with whole | ⟨⟨step, child⟩, member, inside⟩
    · cases whole
    · obtain ⟨place, own, same⟩ := List.mem_map.mp inside
      cases same
      exact ⟨child, mem_children_iff.mp member, own⟩
  · intro ⟨child, found, own⟩
    refine .inr ⟨(segment, child), mem_children_iff.mpr found, ?_⟩
    exact List.mem_map.mpr ⟨_, own, rfl⟩

/-- The walk comes to every place of a value and to no other. -/
theorem mem_places_iff : (path, part) ∈ value.places ↔ value.at? path = some part := by
  obtain ⟨segments⟩ := path
  induction segments generalizing value with
  | nil =>
    have notInside : ((⟨[]⟩ : Path), part) ∉ value.children.flatMap fun child =>
        child.2.places.map (Prod.map (Path.under child.1) id) := by
      simp [Path.under]
    rw [places_eq, List.mem_cons, or_iff_left notInside]
    simp [at?, eq_comm]
  | cons segment segments ih =>
    rw [mem_places_cons_iff, at?_cons, Option.bind_eq_some_iff]
    exact exists_congr fun child => and_congr_right fun _ => ih

/-- The walk comes to every place once, and in this order. -/
theorem places_ordered (value : Value) :
    value.places.Pairwise fun place other => place.1.Precedes other.1 := by
  induction value using induction_parts with
  | whole value ih =>
    rw [places_eq, List.pairwise_cons, List.pairwise_flatMap]
    refine ⟨?_, ?_, ?_⟩
    · intro place later
      obtain ⟨child, _, inside⟩ := List.mem_flatMap.mp later
      obtain ⟨own, _, rfl⟩ := List.mem_map.mp inside
      exact .nil
    · intro child member
      have inner := ih child.1 child.2 (mem_children_iff.mp member)
      exact List.pairwise_map.mpr (inner.imp .cons)
    · apply value.children_ordered.imp
      intro child other before place inside counterpart within
      obtain ⟨_, _, rfl⟩ := List.mem_map.mp inside
      obtain ⟨_, _, rfl⟩ := List.mem_map.mp within
      exact .rel before

end Value

end Conform
