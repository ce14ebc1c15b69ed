import Conform.Fields

/-!
Maps told by their entries: a name is found at most once, and maps in which the same is found
under every name are the same map.
-/

namespace Conform.Fields

variable {α β : Type} {lower : Option String} {name : String} {value : α}

/-- Names that are found lie above the bound of the map. -/
theorem above_of_find? {fields : Fields α lower} (found : fields.find? name = some value) :
    Above lower name := by
  induction fields with
  | nil => cases found
  | cons entry above current rest ih =>
    rw [find?] at found
    split at found
    · rename_i same
      exact same ▸ above
    · exact above.trans (ih found)

theorem find?_eq_none {bound : String} (fields : Fields α (some bound))
    (outside : ¬ bound < name) : fields.find? name = none := by
  cases found : fields.find? name with
  | none => rfl
  | some value => exact absurd (above_of_find? found) outside

/-- The name of an entry is found nowhere behind it. -/
theorem find?_rest (fields : Fields α (some name)) : fields.find? name = none :=
  find?_eq_none fields (String.lt_irrefl name)

theorem find?_cons_eq_some_iff {entry : String} {above : Above lower entry} {current : α}
    {rest : Fields α (some entry)} :
    (cons entry above current rest).find? name = some value ↔
      entry = name ∧ current = value ∨ rest.find? name = some value := by
  by_cases same : entry = name
  · subst same
    simp [find?, find?_rest rest]
  · simp [find?, same]

/-- What holds of all values of a map holds of the first and of all behind it. -/
theorem forall_find?_cons {holds : α → Prop} {entry : String} {above : Above lower entry}
    {current : α} {rest : Fields α (some entry)} :
    (∀ name value, (cons entry above current rest).find? name = some value → holds value) ↔
      holds current ∧ ∀ name value, rest.find? name = some value → holds value := by
  constructor
  · intro all
    refine ⟨all entry current (find?_cons_eq_some_iff.mpr (.inl ⟨rfl, rfl⟩)), ?_⟩
    intro name value found
    exact all name value (find?_cons_eq_some_iff.mpr (.inr found))
  · rintro ⟨own, others⟩ name value found
    rcases find?_cons_eq_some_iff.mp found with ⟨_, rfl⟩ | behind
    · exact own
    · exact others name value behind

/-- No name that is found lies before the first. -/
theorem first_le {entry : String} {above : Above lower entry} {current : α}
    {rest : Fields α (some entry)}
    (found : ((cons entry above current rest).find? name).isSome = true) : entry ≤ name := by
  apply String.not_lt.mp
  intro before
  have absent := find?_eq_none rest (String.lt_asymm before)
  simp [find?, absent, Ne.symm (String.ne_of_lt before)] at found

/-- The same names are found in two maps, whatever is found under them. -/
def SameNames {upper : Option String} (fields : Fields α lower) (others : Fields β upper) : Prop :=
  ∀ name, (fields.find? name).isSome = (others.find? name).isSome

theorem sameNames_iff {upper : Option String} {fields : Fields α lower} {others : Fields β upper} :
    fields.SameNames others ↔
      (∀ name value, fields.find? name = some value → ∃ image, others.find? name = some image) ∧
        ∀ name image, others.find? name = some image → ∃ value, fields.find? name = some value := by
  rw [SameNames, ← forall_and]
  refine forall_congr' fun name => ?_
  rw [Bool.eq_iff_iff, Option.isSome_iff_exists, Option.isSome_iff_exists]
  exact iff_iff_implies_and_implies.trans (and_congr forall_exists_index forall_exists_index)

section

variable {upper : Option String} {entry other : String} {above : Above lower entry}
  {otherAbove : Above upper other} {current : α} {counterpart : β} {rest : Fields α (some entry)}

theorem SameNames.first_eq {others : Fields β (some other)}
    (same : SameNames (cons entry above current rest) (cons other otherAbove counterpart others)) :
    entry = other := by
  apply String.le_antisymm
  · apply first_le
    rw [same other]
    simp [find?]
  · apply first_le
    rw [← same entry]
    simp [find?]

variable {entryAbove : Above upper entry} {others : Fields β (some entry)}

theorem sameNames_cons_iff :
    SameNames (cons entry above current rest) (cons entry entryAbove counterpart others) ↔
      SameNames rest others := by
  refine forall_congr' fun name => ?_
  by_cases here : entry = name
  · subst here
    simp [find?, find?_rest]
  · simp [find?, here]

/-- What holds of the values under every common name holds of the first two and of all behind
them. -/
theorem forall_common_cons {holds : α → β → Prop} :
    (∀ name value image, (cons entry above current rest).find? name = some value →
        (cons entry entryAbove counterpart others).find? name = some image → holds value image) ↔
      holds current counterpart ∧ ∀ name value image, rest.find? name = some value →
        others.find? name = some image → holds value image := by
  constructor
  · intro all
    refine ⟨all entry current counterpart (by simp [find?]) (by simp [find?]), ?_⟩
    intro name value image found there
    exact all name value image (find?_cons_eq_some_iff.mpr (.inr found))
      (find?_cons_eq_some_iff.mpr (.inr there))
  · rintro ⟨own, behind⟩ name value image found there
    by_cases here : entry = name
    · simp only [find?, if_pos here, Option.some.injEq] at found there
      exact found ▸ there ▸ own
    · simp only [find?, if_neg here] at found there
      exact behind name value image found there

end

theorem ext {fields others : Fields α lower}
    (same : ∀ name, fields.find? name = others.find? name) : fields = others := by
  induction fields with
  | nil =>
    cases others with
    | nil => rfl
    | cons other above counterpart others => simpa [find?] using same other
  | cons entry above current rest ih =>
    cases others with
    | nil => simpa [find?] using same entry
    | cons other otherAbove counterpart others =>
      obtain rfl := SameNames.first_eq fun name => congrArg Option.isSome (same name)
      have own : current = counterpart := by simpa [find?] using same entry
      have behind : rest = others := by
        apply ih
        intro name
        by_cases here : entry = name
        · subst here
          rw [find?_rest, find?_rest]
        · simpa [find?, here] using same name
      rw [own, behind]

/-- Functions that agree on the values of a map make the same map of it. -/
theorem map_congr {f g : α → β} {fields : Fields α lower}
    (agree : ∀ name value, fields.find? name = some value → f value = g value) :
    fields.map f = fields.map g := by
  apply ext
  intro name
  rw [find?_map, find?_map]
  cases found : fields.find? name with
  | none => rfl
  | some value => exact congrArg some (agree name value found)

theorem toList_map (f : α → β) (fields : Fields α lower) :
    (fields.map f).toList = fields.toList.map fun entry => (entry.1, f entry.2) := by
  induction fields with
  | nil => rfl
  | cons entry above value rest ih => rw [map, toList, toList, ih, List.map_cons]

@[simp]
theorem find?_insert (fields : Fields α none) (name other : String) (value : α) :
    (fields.insert name value).find? other =
      if name = other then some value else fields.find? other :=
  find?_insertAbove name other value _ fields

/-- Entries that are set one by one in name order come before what was there. -/
theorem find?_foldl_insert (fields : Fields α lower) (start : Fields α none) (name : String) :
    (fields.toList.foldl (fun fields pair => fields.insert pair.1 pair.2) start).find? name =
      (fields.find? name).or (start.find? name) := by
  induction fields generalizing start with
  | nil => rfl
  | cons entry above current rest ih =>
    rw [toList, List.foldl_cons, ih, find?_insert]
    by_cases here : entry = name
    · subst here
      simp [find?, find?_rest rest]
    · simp [find?, here]

/-- A map is made again from the list of its entries. -/
theorem ofList_toList (fields : Fields α none) : ofList fields.toList = fields := by
  apply ext
  intro name
  rw [ofList, find?_foldl_insert]
  exact Option.or_none

/-- The last position of a name. -/
def lastIndex? (name : String) : List String → Option Nat
  | [] => none
  | other :: names =>
    ((lastIndex? name names).map (· + 1)).or (if other = name then some 0 else none)

theorem getElem?_lastIndex? {names : List String} {index : Nat}
    (last : lastIndex? name names = some index) : names[index]? = some name := by
  induction names generalizing index with
  | nil => cases last
  | cons other names ih =>
    rw [lastIndex?] at last
    cases later : lastIndex? name names with
    | some position =>
      rw [later] at last
      cases last
      exact ih later
    | none =>
      rw [later, Option.map_none, Option.none_or, Option.ite_none_right_eq_some] at last
      obtain ⟨rfl, ⟨⟩⟩ := last
      rfl

theorem not_mem_of_lastIndex? {names : List String} (absent : lastIndex? name names = none) :
    name ∉ names := by
  induction names with
  | nil => exact List.not_mem_nil
  | cons other names ih =>
    rw [lastIndex?, Option.or_eq_none_iff, Option.map_eq_none_iff] at absent
    intro member
    rcases List.mem_cons.mp member with same | later
    · simp [same] at absent
    · exact ih absent.1 later

private theorem find?_foldl_pairs (pairs : List (String × α)) (start : Fields α none)
    (name : String) :
    (pairs.foldl (fun fields pair => fields.insert pair.1 pair.2) start).find? name =
      ((lastIndex? name (pairs.map Prod.fst)).bind fun index =>
        (pairs[index]?).map Prod.snd).or (start.find? name) := by
  induction pairs generalizing start with
  | nil => rfl
  | cons pair pairs ih =>
    rw [List.foldl_cons, ih, find?_insert, List.map_cons, lastIndex?]
    cases later : lastIndex? name (pairs.map Prod.fst) with
    | some index =>
      have found := getElem?_lastIndex? later
      rw [List.getElem?_map] at found
      obtain ⟨last, there, _⟩ := Option.map_eq_some_iff.mp found
      simp [there]
    | none => by_cases here : pair.1 = name <;> simp [here]

/-- Of several values for one name the last is found. -/
theorem find?_ofList (pairs : List (String × α)) (name : String) :
    (ofList pairs).find? name = (lastIndex? name (pairs.map Prod.fst)).bind fun index =>
      (pairs[index]?).map Prod.snd := by
  rw [ofList, find?_foldl_pairs]
  exact Option.or_none

@[simp]
theorem find?_erase (fields : Fields α lower) (name other : String) :
    (fields.erase name).find? other = if name = other then none else fields.find? other := by
  induction fields with
  | nil => exact (ite_self none).symm
  | cons entry above current rest ih =>
    rw [erase]
    by_cases here : entry = name
    · subst here
      rw [if_pos rfl, find?_weaken, find?]
      split
      · rename_i same
        rw [← same, find?_rest]
      · rfl
    · rw [if_neg here, find?, find?, ih]
      split
      · rename_i same
        rw [if_neg fun again => here (same.trans again.symm)]
      · rfl

end Conform.Fields
