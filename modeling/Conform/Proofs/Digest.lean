import Conform.Blueprint
import Conform.Proofs.Exchange
import Conform.Proofs.Offence
import Conform.Proofs.Overwriting
import Conform.Proofs.Rendering

/-!
Digests: what is computed from a value part by part. A store that lists the entries of a record in
an order of its own hands them on in that order, so a digest has to do without any.

Texts, templates, documents and equality are digests. Those whose results show an order sort the
entries by name first, and the others put them into a map or count them.
-/

namespace Conform

/-- What becomes of a scalar, of a list whose items are done, and of a record whose entries are
done. -/
structure Digest (α : Type) where
  scalar : Scalar → α
  list : List α → α
  record : List (String × α) → α

mutual

/-- Computes a digest, with the entries of a record in the order in which they stand. -/
def Blueprint.digest {α : Type} (digest : Digest α) : Blueprint → α
  | .scalar value => digest.scalar value
  | .list items => digest.list (Blueprint.itemDigests digest items)
  | .record pairs => digest.record (Blueprint.pairDigests digest pairs)
  | .repeated count item => digest.list (List.replicate count (item.digest digest))

def Blueprint.itemDigests {α : Type} (digest : Digest α) : List Blueprint → List α
  | [] => []
  | item :: items => item.digest digest :: Blueprint.itemDigests digest items

def Blueprint.pairDigests {α : Type} (digest : Digest α) :
    List (String × Blueprint) → List (String × α)
  | [] => []
  | (name, part) :: pairs => (name, part.digest digest) :: Blueprint.pairDigests digest pairs

end

namespace Blueprint

/-- Every record has one pair for a name, as the entries that a store lists for it. -/
inductive Distinct : Blueprint → Prop where
  | scalar {value : Scalar} : Distinct (.scalar value)
  | list {items : List Blueprint} (each : ∀ item ∈ items, Distinct item) : Distinct (.list items)
  | record {pairs : List (String × Blueprint)} (names : (pairs.map Prod.fst).Nodup)
      (each : ∀ pair ∈ pairs, Distinct pair.2) : Distinct (.record pairs)
  | repeated {count : Nat} {item : Blueprint} (inside : Distinct item) :
      Distinct (.repeated count item)

variable {α : Type} (digest : Digest α)

theorem itemContents_eq_map (items : List Blueprint) :
    itemContents items = items.map content := by
  induction items with
  | nil => rfl
  | cons item items ih => rw [itemContents, ih, List.map_cons]

theorem pairContents_eq_map (pairs : List (String × Blueprint)) :
    pairContents pairs = pairs.map fun pair => (pair.1, pair.2.content) := by
  induction pairs with
  | nil => rfl
  | cons pair pairs ih => rw [pairContents, ih, List.map_cons]

theorem itemDigests_eq_map (items : List Blueprint) :
    itemDigests digest items = items.map (Blueprint.digest digest) := by
  induction items with
  | nil => rfl
  | cons item items ih => rw [itemDigests, ih, List.map_cons]

theorem pairDigests_eq_map (pairs : List (String × Blueprint)) :
    pairDigests digest pairs = pairs.map fun pair => (pair.1, pair.2.digest digest) := by
  induction pairs with
  | nil => rfl
  | cons pair pairs ih => rw [pairDigests, ih, List.map_cons]

end Blueprint

namespace Digest

variable {α : Type}

/-- A function of values that agrees with a digest, one level at a time: for a record it takes the
entries in any order. -/
structure Computes (digest : Digest α) (f : Value → α) : Prop where
  scalar : ∀ value, f (.scalar value) = digest.scalar value
  list : ∀ items, f (.list items) = digest.list (items.map f)
  record : ∀ entries : List (String × Value), (entries.map Prod.fst).Nodup →
    f (.ofPairs entries) = digest.record (entries.map fun entry => (entry.1, f entry.2))

/-- In whatever order a store lists the entries of its records, the digest is that of the value. -/
theorem Computes.digest_eq {digest : Digest α} {f : Value → α} (computes : digest.Computes f)
    {store : Blueprint} (distinct : store.Distinct) : store.digest digest = f store.content := by
  induction distinct with
  | scalar => exact (computes.scalar _).symm
  | list each ih =>
    rw [Blueprint.digest, Blueprint.content, computes.list, Blueprint.itemDigests_eq_map,
      Blueprint.itemContents_eq_map, List.map_map]
    exact congrArg digest.list (List.map_congr_left ih)
  | @record pairs names each ih =>
    have distinct : ((pairs.map fun pair => (pair.1, pair.2.content)).map Prod.fst).Nodup := by
      rw [List.map_map]
      exact names
    rw [Blueprint.digest, Blueprint.content, Blueprint.pairDigests_eq_map,
      Blueprint.pairContents_eq_map, computes.record _ distinct, List.map_map]
    apply congrArg digest.record
    apply List.map_congr_left
    intro pair member
    exact congrArg (Prod.mk pair.1) (ih pair member)
  | repeated inside ih =>
    rw [Blueprint.digest, Blueprint.content, computes.list, List.map_replicate, ih]

/-- The readable text. -/
def text : Digest String where
  scalar := Scalar.toText
  list items := "[" ++ ", ".intercalate items ++ "]"
  record entries := "\x7b" ++ ", ".intercalate
    ((sortedByName entries).map fun entry => entry.1 ++ ": " ++ entry.2) ++ "\x7d"

/-- The pattern of a template, or what keeps the value from being one. -/
def template : Digest (Except TemplateError Pattern) where
  scalar value := return .literal value
  list
    | [element] => return .sequence (← element)
    | items => throw (.itemCount items.length)
  record entries := do
    let fields ← (sortedByName entries).mapM fun entry => do return (entry.1, ← entry.2)
    return .object fields

/-- The document. -/
def json : Digest Json where
  scalar := .ofScalar
  list := .array
  record entries := .object (.ofList entries)

/-- Whether a value is equal to another one: lists item by item, and records when they have as many
entries and every entry of the first is equal to what the second has under its name. -/
def equal : Digest (Value → Bool) where
  scalar value other := (Value.scalar value).equal other
  list items
    | .list others =>
      items.length == others.length && (items.zip others).all fun pair => pair.1 pair.2
    | _ => false
  record entries
    | .record others =>
      entries.length == others.size && entries.all fun entry =>
        (others.find? entry.1).any entry.2
    | _ => false

theorem sortedByName_map {β : Type} (f : α → β) (entries : List (String × α)) :
    sortedByName (entries.map fun entry => (entry.1, f entry.2)) =
      (sortedByName entries).map fun entry => (entry.1, f entry.2) := by
  apply Eq.symm
  apply List.map_mergeSort
  intro _ _ _ _
  rfl

theorem text_computes : text.Computes Value.toText where
  scalar _ := rfl
  list items := by
    rw [Value.toText, Value.itemTexts_eq_map]
    rfl
  record entries distinct := by
    rw [Value.toText_ofPairs distinct]
    simp only [text, sortedByName_map, List.map_map]
    rfl

theorem template_computes : template.Computes Pattern.ofTemplate where
  scalar _ := rfl
  list items := by
    match items with
    | [] => rfl
    | [_] => rfl
    | first :: second :: rest =>
      have length : ((first :: second :: rest).map Pattern.ofTemplate).length =
          (first :: second :: rest).length := List.length_map _
      exact congrArg (fun count => throw (TemplateError.itemCount count)) length.symm
  record entries distinct := by
    rw [Value.ofPairs, Pattern.ofTemplate, Pattern.ofTemplateFields_eq_mapM,
      Fields.toList_ofList distinct]
    simp only [template, sortedByName_map, List.mapM_map]
    rfl

theorem json_computes : json.Computes Value.toJson where
  scalar _ := rfl
  list := Value.toJson_list
  record entries _ := by
    rw [Value.ofPairs, Value.toJson_record, Fields.map_ofList]
    rfl

/-- Records are equal when they have as many entries and every entry of the first has an equal
counterpart in the second. No name is missing then on either side. -/
theorem equal_ofPairs {entries : List (String × Value)} {others : Fields Value none}
    (distinct : (entries.map Prod.fst).Nodup) :
    (Value.ofPairs entries).equal (.record others) =
      (entries.length == others.size && entries.all fun entry =>
        (others.find? entry.1).any entry.2.equal) := by
  have found : ∀ {name part}, (Fields.ofList entries).find? name = some part ↔
      (name, part) ∈ entries := Fields.find?_ofList_eq_some_iff distinct
  have size : (Fields.ofList entries).size = entries.length := by
    rw [Fields.size, Fields.toList_ofList distinct, sortedByName, List.length_mergeSort]
  rw [Bool.eq_iff_iff, Value.ofPairs, Value.equal_record_iff, Bool.and_eq_true, beq_iff_eq,
    List.all_eq_true, ← size]
  constructor
  · rintro ⟨same, parts⟩
    have counterparts : ∀ entry ∈ entries,
        (others.find? entry.1).any entry.2.equal = true := by
      intro entry member
      obtain ⟨counterpart, opposite⟩ := (Fields.sameNames_iff.mp same).1 _ _ (found.mpr member)
      rw [opposite, Option.any_some]
      exact parts _ _ _ (found.mpr member) opposite
    refine ⟨(Fields.sameNames_iff_size_eq ?_).mp same, counterparts⟩
    intro name present
    rw [← same name, present]
  · rintro ⟨length, counterparts⟩
    have included : ∀ name part, (Fields.ofList entries).find? name = some part →
        ∃ counterpart, others.find? name = some counterpart ∧ part.equal counterpart = true := by
      intro name part present
      exact (Option.any_eq_true _ _).mp (counterparts _ (found.mp present))
    refine ⟨(Fields.sameNames_iff_size_eq ?_).mpr length, ?_⟩
    · intro name present
      obtain ⟨part, present⟩ := Option.isSome_iff_exists.mp present
      obtain ⟨counterpart, opposite, _⟩ := included name part present
      rw [opposite, Option.isSome_some]
    · intro name part counterpart present opposite
      obtain ⟨other, again, equal⟩ := included name part present
      obtain rfl := Option.some.inj (again.symm.trans opposite)
      exact equal

theorem equal_computes : equal.Computes Value.equal where
  scalar _ := rfl
  list items := by
    funext other
    cases other with
    | list others =>
      rw [Bool.eq_iff_iff, Value.equal_list_iff, List.forall₂_iff_zip]
      simp only [equal, Bool.and_eq_true, beq_iff_eq, List.length_map, List.zip_map_left,
        List.all_map, List.all_eq_true, Prod.forall, Function.comp_apply, Prod.map_apply, id_eq]
    | scalar | record => rfl
  record entries distinct := by
    funext other
    cases other with
    | record others =>
      simp only [equal, List.length_map, List.all_map]
      exact equal_ofPairs distinct
    | scalar | list => rfl

end Digest

end Conform
