import Conform.Proofs.Places
import Conform.Proofs.Template

/-!
What keeps a value from being a template: a list that has not exactly one item. Of several such
lists the one is reported that a depth-first walk comes to first.
-/

namespace Conform

namespace Value

/-- Every list in a value, at whatever depth, has exactly one item. -/
def SingleItems (value : Value) : Prop :=
  ∀ path items, value.at? path = some (.list items) → items.length = 1

/-- A list that has not exactly one item, and that a depth-first walk comes to before any other such
list. -/
structure FirstOffence (value : Value) (path : Path) (items : List Value) : Prop where
  found : value.at? path = some (.list items)
  offends : items.length ≠ 1
  first : ∀ other others, value.at? other = some (.list others) → others.length ≠ 1 →
    other = path ∨ path.Precedes other

/-- What is wrong with a value itself, whatever is wrong with its parts. -/
def offence? : Value → Option TemplateError
  | .list items => if items.length = 1 then none else some (.itemCount items.length)
  | _ => none

/-- All that is wrong with a value and its parts, in the order of a depth-first walk. -/
def offences (value : Value) : List TemplateError :=
  value.places.filterMap fun place => place.2.offence?

variable {value : Value} {path : Path} {items : List Value} {problem : TemplateError}

theorem offences_eq (value : Value) :
    value.offences =
      value.offence?.toList ++ value.children.flatMap fun child => child.2.offences := by
  rw [offences, places_eq, List.filterMap_cons, List.filterMap_flatMap]
  simp only [List.filterMap_map, Function.comp_def, Prod.map_snd, id_eq]
  cases value.offence? <;> rfl

theorem offence?_eq_some_iff :
    value.offence? = some problem ↔
      ∃ items, value = .list items ∧ items.length ≠ 1 ∧ problem = .itemCount items.length := by
  cases value with
  | scalar | record => simp [offence?]
  | list items => simp [offence?, eq_comm]

theorem mem_offences_iff :
    problem ∈ value.offences ↔ ∃ path items, value.at? path = some (.list items) ∧
      items.length ≠ 1 ∧ problem = .itemCount items.length := by
  rw [offences, List.mem_filterMap]
  constructor
  · intro ⟨⟨path, part⟩, member, offence⟩
    obtain ⟨items, rfl, offends, same⟩ := offence?_eq_some_iff.mp offence
    exact ⟨path, items, mem_places_iff.mp member, offends, same⟩
  · intro ⟨path, items, found, offends, same⟩
    have offence := offence?_eq_some_iff.mpr ⟨items, rfl, offends, same⟩
    exact ⟨_, mem_places_iff.mpr found, offence⟩

theorem itemCount_mem_offences (found : value.at? path = some (.list items))
    (offends : items.length ≠ 1) : .itemCount items.length ∈ value.offences :=
  mem_offences_iff.mpr ⟨path, items, found, offends, rfl⟩

theorem FirstOffence.unique {other : Path} {others : List Value}
    (first : value.FirstOffence path items) (second : value.FirstOffence other others) :
    path = other ∧ items = others := by
  have same : path = other := by
    rcases first.first other others second.found second.offends with same | before
    · exact same.symm
    · rcases second.first path items first.found first.offends with same | after
      · exact same
      · exact absurd after before.asymm
  subst same
  cases first.found.symm.trans second.found
  exact ⟨rfl, rfl⟩

/-- The walk comes to the first entry that offends before every other that does. -/
theorem firstOffence_of_head? (head : value.offences.head? = some problem) :
    ∃ path items, value.FirstOffence path items ∧ problem = .itemCount items.length := by
  rw [offences, List.head?_filterMap, List.findSome?_eq_some_iff] at head
  obtain ⟨before, ⟨path, part⟩, after, split, offence, clean⟩ := head
  obtain ⟨items, rfl, offends, same⟩ := offence?_eq_some_iff.mp offence
  have ordered := value.places_ordered
  rw [split, List.pairwise_append, List.pairwise_cons] at ordered
  refine ⟨path, items, ⟨mem_places_iff.mp ?_, offends, ?_⟩, same⟩
  · rw [split]
    exact List.mem_append_right _ List.mem_cons_self
  · intro other others found wrong
    have member : (other, .list others) ∈ value.places := mem_places_iff.mpr found
    rw [split, List.mem_append, List.mem_cons] at member
    rcases member with early | here | late
    · have offence := offence?_eq_some_iff.mpr ⟨others, rfl, wrong, rfl⟩
      cases (clean _ early).symm.trans offence
    · exact .inl (congrArg Prod.fst here)
    · exact .inr (ordered.2.1.1 _ late)

theorem head?_offences_eq_some_iff :
    value.offences.head? = some problem ↔
      ∃ path items, value.FirstOffence path items ∧ problem = .itemCount items.length := by
  constructor
  · exact firstOffence_of_head?
  · intro ⟨path, items, first, same⟩
    subst same
    have listed := itemCount_mem_offences first.found first.offends
    cases head : value.offences.head? with
    | none =>
      rw [List.head?_eq_none_iff.mp head] at listed
      cases listed
    | some problem =>
      obtain ⟨other, others, again, rfl⟩ := firstOffence_of_head? head
      rw [(first.unique again).2]

theorem offences_eq_nil_iff : value.offences = [] ↔ value.SingleItems := by
  constructor
  · intro none path items found
    by_contra offends
    have listed := itemCount_mem_offences found offends
    rw [none] at listed
    cases listed
  · intro single
    apply List.eq_nil_iff_forall_not_mem.mpr
    intro problem member
    obtain ⟨path, items, found, offends, _⟩ := mem_offences_iff.mp member
    exact offends (single path items found)

end Value

namespace Pattern

variable {value : Value} {problem : TemplateError}

/-- What an attempt was given up for. -/
def refusal? {α : Type} : Except TemplateError α → Option TemplateError
  | .error problem => some problem
  | .ok _ => none

/-- Fields are tried one after the other, until one is refused. -/
theorem refusal?_ofTemplateFields {lower : Option String} {fields : Fields Value lower}
    (parts : ∀ name part, fields.find? name = some part →
      refusal? (ofTemplate part) = part.offences.head?) :
    refusal? (ofTemplateFields fields) =
      (fields.toList.flatMap fun entry => entry.2.offences).head? := by
  induction fields with
  | nil => rfl
  | cons name above value rest ih =>
    obtain ⟨own, behind⟩ := Fields.forall_find?_cons.mp parts
    rw [ofTemplateFields, Fields.toList, List.flatMap_cons, List.head?_append, ← own, ← ih behind]
    cases ofTemplate value with
    | error problem => rfl
    | ok field => cases ofTemplateFields rest <;> rfl

/-- A value is refused for its first offence. -/
theorem refusal?_ofTemplate (value : Value) :
    refusal? (ofTemplate value) = value.offences.head? := by
  induction value with
  | scalar value => rfl
  | list items ih =>
    rw [Value.offences_eq]
    match items with
    | [] => rfl
    | [item] =>
      have own := ih item List.mem_cons_self
      have inner : refusal? (ofTemplate (.list [item])) = refusal? (ofTemplate item) := by
        rw [ofTemplate]
        cases ofTemplate item <;> rfl
      rw [inner, own]
      simp [Value.offence?, Value.children]
    | item :: next :: rest => rfl
  | record fields ih =>
    have inner : refusal? (ofTemplate (.record fields)) = refusal? (ofTemplateFields fields) := by
      rw [ofTemplate]
      cases ofTemplateFields fields <;> rfl
    rw [inner, refusal?_ofTemplateFields ih, Value.offences_eq]
    simp [Value.offence?, Value.children, List.flatMap_map]

theorem ofTemplateFields_eq_mapM {lower : Option String} (fields : Fields Value lower) :
    ofTemplateFields fields = fields.toList.mapM fun entry => do
      return (entry.1, ← ofTemplate entry.2) := by
  induction fields with
  | nil => rfl
  | cons name above value rest ih =>
    rw [ofTemplateFields, Fields.toList, List.mapM_cons, ih]
    cases ofTemplate value <;> rfl

theorem ofTemplate_eq_error_iff :
    ofTemplate value = .error problem ↔ value.offences.head? = some problem := by
  rw [← refusal?_ofTemplate]
  cases ofTemplate value <;> simp [refusal?]

theorem exists_ofTemplate_iff : (∃ pattern, ofTemplate value = .ok pattern) ↔ value.SingleItems := by
  rw [← Value.offences_eq_nil_iff, ← List.head?_eq_none_iff, ← refusal?_ofTemplate]
  cases ofTemplate value <;> simp [refusal?]

/-- A value is a template when all lists in it have exactly one item, and otherwise the first that
has not is reported. In whatever order the entries of a record come, they are tried in the order of
the bytes of their names. -/
theorem ofTemplate_first_offence (value : Value) :
    ((∃ pattern, ofTemplate value = .ok pattern) ↔ value.SingleItems) ∧
      (∀ problem, ofTemplate value = .error problem ↔
        ∃ path items, value.FirstOffence path items ∧ problem = .itemCount items.length) ∧
      ∀ entries : List (String × Value), (entries.map Prod.fst).Nodup →
        ofTemplate (.ofPairs entries) = do
          let declared ← (sortedByName entries).mapM fun entry => do
            return (entry.1, ← ofTemplate entry.2)
          return .object declared := by
  refine ⟨exists_ofTemplate_iff, ?_, ?_⟩
  · intro problem
    rw [ofTemplate_eq_error_iff, Value.head?_offences_eq_some_iff]
  · intro entries distinct
    rw [Value.ofPairs, ofTemplate, ofTemplateFields_eq_mapM, Fields.toList_ofList distinct]

example : ofTemplate (.ofPairs [("b", .list []),
    ("a", .ofPairs [("x", .list [.list [.string "y", .list []]])])]) = .error (.itemCount 2) :=
  rfl

end Pattern

end Conform
