import Conform.Explanation
import Conform.Proofs.Digest
import Conform.Proofs.Equality
import Conform.Proofs.Making

/-!
Reordering: in what order the pairs of a record are given, and what a later pair overwrites, cannot
be told from the value. Neither can the order in which a store lists the entries.
-/

namespace Conform

namespace Blueprint

/-- Blueprints that come out of each other by moving the pairs of a record and by leaving out or
putting in such as a later pair overwrites, at any depth and any number of times. -/
inductive Reordered : Blueprint → Blueprint → Prop where
  | refl {blueprint : Blueprint} : Reordered blueprint blueprint
  | symm {first second : Blueprint} (same : Reordered first second) : Reordered second first
  | trans {first second third : Blueprint} (left : Reordered first second)
      (right : Reordered second third) : Reordered first third
  | moved {pairs others : List (String × Blueprint)} (distinct : (pairs.map Prod.fst).Nodup)
      (moves : pairs.Perm others) : Reordered (.record pairs) (.record others)
  | overwritten {before after : List (String × Blueprint)} {name : String} {part : Blueprint}
      (again : name ∈ after.map Prod.fst) :
      Reordered (.record (before ++ (name, part) :: after)) (.record (before ++ after))
  | item {before after : List Blueprint} {item other : Blueprint} (inside : Reordered item other) :
      Reordered (.list (before ++ item :: after)) (.list (before ++ other :: after))
  | part {before after : List (String × Blueprint)} {name : String} {part other : Blueprint}
      (inside : Reordered part other) :
      Reordered (.record (before ++ (name, part) :: after))
        (.record (before ++ (name, other) :: after))
  | repeated {count : Nat} {item other : Blueprint} (inside : Reordered item other) :
      Reordered (.repeated count item) (.repeated count other)

/-- What a blueprint makes, as a store keeps it: with one entry for a name, and the entries of a
record listed in any order. -/
structure StoredAs (blueprint store : Blueprint) : Prop where
  reordered : blueprint.Reordered store
  distinct : store.Distinct

variable {first second : Blueprint} {pairs others : List (String × Blueprint)} {name : String}
  {value : Value}

/-- Looking up a name in a record gives the last value that was given for it. -/
theorem field?_record_iff :
    (record pairs).content.field? name = some value ↔
      ∃ part, Prevails name part pairs ∧ part.content = value := by
  rw [content, pairContents_eq_map]
  exact Fields.find?_ofList_iff_prevails.trans prevails_map_iff

theorem content_record_eq
    (same : ∀ name part, Prevails name part pairs ↔ Prevails name part others) :
    (record pairs).content = (record others).content := by
  rw [content, content, pairContents_eq_map, pairContents_eq_map]
  apply congrArg Value.record
  apply Fields.ofList_eq_of_prevails
  intro name value
  rw [prevails_map_iff, prevails_map_iff]
  simp only [same]

namespace Reordered

/-- However the pairs are moved and whatever is overwritten, the value is the same. -/
theorem content_eq (reordered : first.Reordered second) : first.content = second.content := by
  induction reordered with
  | refl => rfl
  | symm same ih => exact ih.symm
  | trans left right first second => exact first.trans second
  | moved distinct moves =>
    apply content_record_eq
    intro name part
    have distinctOthers := (moves.map Prod.fst).nodup_iff.mp distinct
    rw [prevails_iff_mem distinct, prevails_iff_mem distinctOthers, moves.mem_iff]
  | overwritten again => exact content_record_eq fun name part => prevails_overwritten_iff again
  | item inside ih =>
    rw [content, content, itemContents_eq_map, itemContents_eq_map, List.map_append,
      List.map_append, List.map_cons, List.map_cons, ih]
  | part inside ih =>
    rw [content, content, pairContents_eq_map, pairContents_eq_map, List.map_append,
      List.map_append, List.map_cons, List.map_cons, ih]
  | repeated inside ih => rw [content, content, ih]

/-- Of all pairs only those count that no later one overwrites. -/
theorem drop_overwritten (before pairs : List (String × Blueprint)) :
    Reordered (.record (before ++ pairs)) (.record (before ++ prevailing pairs)) := by
  induction pairs generalizing before with
  | nil => exact .refl
  | cons pair rest ih =>
    rw [prevailing]
    split
    · rename_i again
      exact .trans (.overwritten again) (ih before)
    · have behind := ih (before ++ [pair])
      rwa [List.append_assoc, List.append_assoc] at behind

/-- Records are reordered when the same parts prevail in both. -/
theorem of_prevails (same : ∀ name part, Prevails name part pairs ↔ Prevails name part others) :
    Reordered (.record pairs) (.record others) := by
  have moves : (prevailing pairs).Perm (prevailing others) := by
    apply (List.perm_ext_iff_of_nodup ((prevailing_names_nodup _).of_map _)
      ((prevailing_names_nodup _).of_map _)).mpr
    intro pair
    rw [mem_prevailing_iff, mem_prevailing_iff, same]
  exact .trans (drop_overwritten [] pairs)
    (.trans (.moved (prevailing_names_nodup pairs) moves) (.symm (drop_overwritten [] others)))

/-- What can be replaced in any one place can be replaced in all of them. -/
theorem replace_all {α : Type} {whole : List α → Blueprint} {f : α → α} {parts : List α}
    (each : ∀ part ∈ parts, ∀ before after,
      Reordered (whole (before ++ part :: after)) (whole (before ++ f part :: after)))
    (before : List α) : Reordered (whole (before ++ parts)) (whole (before ++ parts.map f)) := by
  induction parts generalizing before with
  | nil => exact .refl
  | cons part parts ih =>
    obtain ⟨first, later⟩ := List.forall_mem_cons.mp each
    have behind := ih later (before ++ [f part])
    rw [List.append_assoc, List.append_assoc] at behind
    exact .trans (first before parts) behind

end Reordered

/-- Whatever a blueprint makes can be stored. -/
theorem exists_stored (blueprint : Blueprint) : ∃ store, blueprint.StoredAs store := by
  induction blueprint using Blueprint.induction with
  | whole blueprint ih =>
    choose! store stored using ih
    cases blueprint with
    | scalar value => exact ⟨.scalar value, .refl, .scalar⟩
    | list items =>
      refine ⟨.list (items.map store), .replace_all ?_ [], .list ?_⟩
      · intro item member before after
        exact .item (stored item member).reordered
      · exact List.forall_mem_map.mpr fun item member => (stored item member).distinct
    | record pairs =>
      have kept : ∀ pair ∈ prevailing pairs, pair.2.StoredAs (store pair.2) := by
        intro pair kept
        exact stored pair.2 (List.mem_map_of_mem (mem_prevailing_iff.mp kept).mem)
      have replaced : Reordered (.record (prevailing pairs))
          (.record ((prevailing pairs).map fun pair => (pair.1, store pair.2))) :=
        .replace_all (fun pair member _ _ => .part (kept pair member).reordered) []
      refine ⟨_, .trans (.drop_overwritten [] pairs) replaced, .record ?_ ?_⟩
      · rw [List.map_map]
        exact prevailing_names_nodup pairs
      · exact List.forall_mem_map.mpr fun pair member => (kept pair member).distinct
    | repeated count item =>
      have inside := stored item List.mem_cons_self
      exact ⟨.repeated count (store item), .repeated inside.reordered, .repeated inside.distinct⟩

/-- The entries of a store give the fields, the text, the template, the document and the equalities
of a value, in the order in which they are listed. -/
structure Yields (store : Blueprint) (value : Value) : Prop where
  field? : ∀ pairs, store = .record pairs → ∀ name part,
    value.field? name = some part ↔ ∃ entry, (name, entry) ∈ pairs ∧ entry.content = part
  text : store.digest .text = value.toText
  template : store.digest .template = Pattern.ofTemplate value
  json : store.digest .json = value.toJson
  equal : store.digest .equal = value.equal

theorem StoredAs.yields {blueprint store : Blueprint} (stored : blueprint.StoredAs store) :
    store.Yields blueprint.content := by
  rw [stored.reordered.content_eq]
  have listed : ∀ pairs, store = .record pairs → ∀ name part,
      store.content.field? name = some part ↔
        ∃ entry, (name, entry) ∈ pairs ∧ entry.content = part := by
    rintro pairs rfl name part
    cases stored.distinct with
    | record names each =>
      rw [field?_record_iff]
      simp only [prevails_iff_mem names]
  exact ⟨listed, Digest.text_computes.digest_eq stored.distinct,
    Digest.template_computes.digest_eq stored.distinct,
    Digest.json_computes.digest_eq stored.distinct,
    Digest.equal_computes.digest_eq stored.distinct⟩

end Blueprint

/-- Values that nothing tells apart. They are equal to each other when either is equal to itself. -/
structure Value.SeenAlike (value other : Value) : Prop where
  field? : ∀ name, value.field? name = other.field? name
  toText : value.toText = other.toText
  toJson : value.toJson = other.toJson
  equal_iff : value.equal other = true ↔ value.WithoutNaN
  equal : ∀ third, value.equal third = other.equal third ∧ third.equal value = third.equal other
  ofTemplate : Pattern.ofTemplate value = Pattern.ofTemplate other
  accepts : ∀ pattern : Pattern, pattern.accepts value = pattern.accepts other
  explain : ∀ pattern : Pattern, pattern.explain value = pattern.explain other

theorem Value.SeenAlike.refl (value : Value) : value.SeenAlike value where
  field? _ := rfl
  toText := rfl
  toJson := rfl
  equal_iff := equal_self_iff value
  equal _ := ⟨rfl, rfl⟩
  ofTemplate := rfl
  accepts _ := rfl
  explain _ := rfl

namespace Blueprint

variable {first second : Blueprint}

/-- The order of pairs and what is overwritten among them cannot be told from what is made: a name
stands for the last value that either blueprint gives for it, nothing tells the values apart, and
stores of the one or the other, in whatever order they list the entries, yield the same. -/
theorem reordering_unobservable (reordered : first.Reordered second) :
    (∀ pairs, first = .record pairs ∨ second = .record pairs → ∀ name value,
      first.content.field? name = some value ↔
        ∃ part, Prevails name part pairs ∧ part.content = value) ∧
    first.content.SeenAlike second.content ∧
    ∀ store, first.StoredAs store ∨ second.StoredAs store → store.Yields first.content := by
  have same := reordered.content_eq
  refine ⟨?_, ?_, ?_⟩
  · rintro pairs (rfl | rfl) name value
    · exact field?_record_iff
    · rw [same]
      exact field?_record_iff
  · rw [same]
    exact .refl _
  · rintro store (stored | stored)
    · exact stored.yields
    · rw [same]
      exact stored.yields

/-- A pair that is overwritten, pairs moved inside a part, and a store that lists no record in name
order. -/
theorem reordering_unobservable_nested :
    Reordered
        (.record [("b", .scalar .null),
          ("a", .record [("y", .scalar (.ofInt 1)), ("x", .scalar .null)]),
          ("b", .list [.scalar (.string "")])])
        (.record [("a", .record [("x", .scalar .null), ("y", .scalar (.ofInt 1))]),
          ("b", .list [.scalar (.string "")])]) ∧
      (record [("b", .scalar .null),
          ("a", .record [("y", .scalar (.ofInt 1)), ("x", .scalar .null)]),
          ("b", .list [.scalar (.string "")])]).StoredAs
        (.record [("b", .list [.scalar (.string "")]),
          ("a", .record [("y", .scalar (.ofInt 1)), ("x", .scalar .null)])]) ∧
      (record [("b", .list [.scalar (.string "")]),
          ("a", .record [("y", .scalar (.ofInt 1)), ("x", .scalar .null)])]).digest .text =
        "\x7ba: \x7bx: null, y: 1\x7d, b: [\"\"]\x7d" := by
  have dropped : Reordered
      (.record [("b", .scalar .null),
        ("a", .record [("y", .scalar (.ofInt 1)), ("x", .scalar .null)]),
        ("b", .list [.scalar (.string "")])])
      (.record [("a", .record [("y", .scalar (.ofInt 1)), ("x", .scalar .null)]),
        ("b", .list [.scalar (.string "")])]) :=
    @Reordered.overwritten [] _ "b" _ (by decide)
  have inner : Reordered (.record [("y", .scalar (.ofInt 1)), ("x", .scalar .null)])
      (.record [("x", .scalar .null), ("y", .scalar (.ofInt 1))]) :=
    .moved (by decide) (.swap _ _ [])
  have reordered := dropped.trans (@Reordered.part [] _ "a" _ _ inner)
  have stored : (record [("b", .scalar .null),
        ("a", .record [("y", .scalar (.ofInt 1)), ("x", .scalar .null)]),
        ("b", .list [.scalar (.string "")])]).StoredAs
      (.record [("b", .list [.scalar (.string "")]),
        ("a", .record [("y", .scalar (.ofInt 1)), ("x", .scalar .null)])]) := by
    refine ⟨dropped.trans (.moved (by decide) (.swap _ _ [])), .record (by decide) ?_⟩
    simp only [List.forall_mem_cons]
    refine ⟨.list ?_, .record (by decide) ?_, nofun⟩
    · exact List.forall_mem_singleton.mpr .scalar
    · exact List.forall_mem_cons.mpr ⟨.scalar, List.forall_mem_singleton.mpr .scalar⟩
  obtain ⟨_, _, yields⟩ := reordering_unobservable reordered
  exact ⟨reordered, stored, (yields _ (.inl stored)).text.trans (by decide)⟩

end Blueprint

end Conform
