import Conform.Proofs.Fields
import Mathlib.Data.List.Induction

/-!
Pairs of which the last for a name counts. A value prevails under its name when no later pair has
that name, and a map made of pairs holds the values that prevail.
-/

namespace Conform

/-- The last value that is given for a name. -/
inductive Prevails {α : Type} (name : String) (value : α) : List (String × α) → Prop where
  | here {rest : List (String × α)} (final : name ∉ rest.map Prod.fst) :
      Prevails name value ((name, value) :: rest)
  | behind {pair : String × α} {rest : List (String × α)} (later : Prevails name value rest) :
      Prevails name value (pair :: rest)

variable {α : Type} {name other : String} {value given : α} {pairs rest : List (String × α)}

theorem Prevails.mem (prevails : Prevails name value pairs) : (name, value) ∈ pairs := by
  induction prevails with
  | here final => exact List.mem_cons_self
  | behind later ih => exact List.mem_cons_of_mem _ ih

theorem Prevails.named (prevails : Prevails name value pairs) : name ∈ pairs.map Prod.fst :=
  List.mem_map.mpr ⟨(name, value), prevails.mem, rfl⟩

theorem prevails_cons_iff :
    Prevails name value ((other, given) :: rest) ↔
      Prevails name value rest ∨ other = name ∧ given = value ∧ name ∉ rest.map Prod.fst := by
  constructor
  · intro prevails
    cases prevails with
    | here final => exact .inr ⟨rfl, rfl, final⟩
    | behind later => exact .inl later
  · rintro (later | ⟨rfl, rfl, final⟩)
    · exact .behind later
    · exact .here final

/-- Where no name is given twice, every pair prevails. -/
theorem prevails_iff_mem (distinct : (pairs.map Prod.fst).Nodup) :
    Prevails name value pairs ↔ (name, value) ∈ pairs := by
  refine ⟨Prevails.mem, ?_⟩
  intro member
  induction pairs with
  | nil => cases member
  | cons pair rest ih =>
    obtain ⟨fresh, distinct⟩ := List.nodup_cons.mp distinct
    rcases List.mem_cons.mp member with same | later
    · subst same
      exact .here fresh
    · exact .behind (ih distinct later)

/-- A pair behind all others prevails and overwrites only what has its name. -/
theorem prevails_concat_iff :
    Prevails name value (pairs ++ [(other, given)]) ↔
      other = name ∧ given = value ∨ other ≠ name ∧ Prevails name value pairs := by
  induction pairs with
  | nil =>
    rw [List.nil_append, prevails_cons_iff]
    constructor
    · rintro (⟨⟨⟩⟩ | ⟨rfl, rfl, _⟩)
      exact .inl ⟨rfl, rfl⟩
    · rintro (⟨rfl, rfl⟩ | ⟨_, ⟨⟩⟩)
      exact .inr ⟨rfl, rfl, List.not_mem_nil⟩
  | cons pair pairs ih =>
    rw [List.cons_append, prevails_cons_iff, prevails_cons_iff, ih]
    simp only [List.map_append, List.map_cons, List.map_nil, List.mem_append, List.mem_singleton]
    grind

/-- What a later pair overwrites makes no difference. -/
theorem prevails_overwritten_iff {before after : List (String × α)}
    (again : other ∈ after.map Prod.fst) :
    Prevails name value (before ++ (other, given) :: after) ↔
      Prevails name value (before ++ after) := by
  induction before with
  | nil =>
    rw [List.nil_append, List.nil_append, prevails_cons_iff]
    refine ⟨?_, .inl⟩
    rintro (later | ⟨rfl, _, final⟩)
    · exact later
    · exact absurd again final
  | cons pair before ih =>
    have names : pair.1 ∈ (before ++ (other, given) :: after).map Prod.fst ↔
        pair.1 ∈ (before ++ after).map Prod.fst := by
      simp only [List.map_append, List.map_cons, List.mem_append, List.mem_cons]
      grind
    rw [List.cons_append, List.cons_append, prevails_cons_iff, prevails_cons_iff, ih]
    grind

theorem prevails_map_iff {β : Type} {f : α → β} {image : β} :
    Prevails name image (pairs.map fun pair => (pair.1, f pair.2)) ↔
      ∃ value, Prevails name value pairs ∧ f value = image := by
  induction pairs with
  | nil => exact iff_of_false nofun nofun
  | cons pair pairs ih =>
    have names : (pairs.map fun pair => (pair.1, f pair.2)).map Prod.fst = pairs.map Prod.fst :=
      List.map_map
    rw [List.map_cons, prevails_cons_iff, ih, names]
    constructor
    · rintro (⟨value, later, rfl⟩ | ⟨rfl, rfl, final⟩)
      · exact ⟨value, .behind later, rfl⟩
      · exact ⟨pair.2, .here final, rfl⟩
    · rintro ⟨value, prevails, rfl⟩
      rcases prevails_cons_iff.mp prevails with later | ⟨rfl, rfl, final⟩
      · exact .inl ⟨value, later, rfl⟩
      · exact .inr ⟨rfl, rfl, final⟩

/-- The pairs that prevail, each where it stands. -/
def prevailing : List (String × α) → List (String × α)
  | [] => []
  | pair :: rest =>
    if pair.1 ∈ rest.map Prod.fst then prevailing rest else pair :: prevailing rest

theorem mem_prevailing_iff : (name, value) ∈ prevailing pairs ↔ Prevails name value pairs := by
  induction pairs with
  | nil => exact iff_of_false nofun nofun
  | cons pair rest ih =>
    rw [prevailing, prevails_cons_iff, ← ih]
    split
    · rename_i again
      refine ⟨.inl, ?_⟩
      rintro (later | ⟨rfl, _, final⟩)
      · exact later
      · exact absurd again final
    · rename_i final
      rw [List.mem_cons, Prod.mk.injEq]
      constructor
      · rintro (⟨rfl, rfl⟩ | later)
        · exact .inr ⟨rfl, rfl, final⟩
        · exact .inl later
      · rintro (later | ⟨rfl, rfl, _⟩)
        · exact .inr later
        · exact .inl ⟨rfl, rfl⟩

/-- One pair is left for a name. -/
theorem prevailing_names_nodup (pairs : List (String × α)) :
    ((prevailing pairs).map Prod.fst).Nodup := by
  induction pairs with
  | nil => exact .nil
  | cons pair rest ih =>
    rw [prevailing]
    split
    · exact ih
    · rename_i final
      refine List.nodup_cons.mpr ⟨?_, ih⟩
      intro kept
      obtain ⟨⟨_, value⟩, member, rfl⟩ := List.mem_map.mp kept
      exact final (mem_prevailing_iff.mp member).named

namespace Fields

theorem ofList_concat (pairs : List (String × α)) (pair : String × α) :
    ofList (pairs ++ [pair]) = (ofList pairs).insert pair.1 pair.2 := by
  rw [ofList, List.foldl_append]
  rfl

/-- A map made of pairs holds what prevails among them. -/
theorem find?_ofList_iff_prevails :
    (ofList pairs).find? name = some value ↔ Prevails name value pairs := by
  induction pairs using List.reverseRecOn with
  | nil => exact iff_of_false nofun nofun
  | append_singleton pairs pair ih =>
    rw [ofList_concat, find?_insert, prevails_concat_iff, ← ih]
    split <;> simp [*]

/-- Where no name is given twice, a map holds exactly the pairs it is made of. -/
theorem find?_ofList_eq_some_iff (distinct : (pairs.map Prod.fst).Nodup) :
    (ofList pairs).find? name = some value ↔ (name, value) ∈ pairs :=
  find?_ofList_iff_prevails.trans (prevails_iff_mem distinct)

/-- Maps are the same when the same prevails among the pairs they are made of. -/
theorem ofList_eq_of_prevails {others : List (String × α)}
    (same : ∀ name value, Prevails name value pairs ↔ Prevails name value others) :
    ofList pairs = ofList others := by
  apply ext
  intro name
  apply Option.ext
  intro value
  rw [find?_ofList_iff_prevails, find?_ofList_iff_prevails, same]

theorem map_ofList {β : Type} (f : α → β) (pairs : List (String × α)) :
    (ofList pairs).map f = ofList (pairs.map fun pair => (pair.1, f pair.2)) := by
  apply ext
  intro name
  apply Option.ext
  intro image
  rw [find?_map, Option.map_eq_some_iff, find?_ofList_iff_prevails, prevails_map_iff]
  simp only [find?_ofList_iff_prevails]

end Fields

end Conform
