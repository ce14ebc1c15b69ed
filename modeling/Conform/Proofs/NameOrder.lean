import Conform.Proofs.Overwriting
import Mathlib.Data.List.Nodup
import Mathlib.Data.List.Perm.Subperm

/-!
The order of names is the order of their bytes, and a map lists its entries in it: whatever order
the entries come in, sorting them by the bytes of their names gives that list.
-/

namespace Conform

namespace Text

/-- The bytes of a text in UTF-8. -/
def bytes (text : String) : List UInt8 :=
  text.toUTF8.data.toList

theorem bytes_eq_flatMap (text : String) :
    bytes text = text.toList.flatMap String.utf8EncodeChar := by
  rw [bytes, String.toUTF8, ← String.utf8Encode_toList, List.utf8Encode, List.data_toByteArray]

private theorem ofNat_cons_lt_iff {m n : Nat} (first : m < 256) (second : n < 256)
    {rest others : List UInt8} :
    UInt8.ofNat m :: rest < UInt8.ofNat n :: others ↔ m < n ∨ m = n ∧ rest < others := by
  have own : (UInt8.ofNat m).toNat = m := UInt8.toNat_ofNat_of_lt' first
  have other : (UInt8.ofNat n).toNat = n := UInt8.toNat_ofNat_of_lt' second
  rw [List.cons_lt_cons_iff, UInt8.lt_iff_toNat_lt, ← UInt8.toNat_inj, own, other]

/-- A longer encoding begins with a greater byte, and two of one length are compared digit by
digit. -/
private theorem utf8EncodeChar_append_lt {c d : Char} (before : c < d) (rest others : List UInt8) :
    String.utf8EncodeChar c ++ rest < String.utf8EncodeChar d ++ others := by
  have below : c.val.toNat < d.val.toNat := UInt32.lt_iff_toNat_lt.mp before
  have bound : d.val.toNat < 0x110000 := by
    rcases d.valid with low | high
    · exact Nat.lt_trans low (by decide)
    · exact high.2
  fun_cases String.utf8EncodeChar c with
  | case1 m | case2 m | case3 m | case4 m <;>
    fun_cases String.utf8EncodeChar d with
    | case1 n | case2 n | case3 n | case4 n <;>
      simp (disch := omega) only [List.cons_append, List.nil_append, ofNat_cons_lt_iff]
  case case4.case4 =>
    by_cases first : m / 262144 = n / 262144
    · by_cases second : m / 4096 = n / 4096
      · by_cases third : m / 64 = n / 64
        · omega
        · omega
      · omega
    · exact .inl (by omega)
  all_goals omega

private theorem flatMap_utf8EncodeChar_lt {chars others : List Char} (before : chars < others) :
    chars.flatMap String.utf8EncodeChar < others.flatMap String.utf8EncodeChar := by
  induction before with
  | @nil c rest =>
    rw [List.flatMap_nil, List.flatMap_cons]
    cases encoded : String.utf8EncodeChar c with
    | nil => exact absurd encoded String.utf8EncodeChar_ne_nil
    | cons byte bytes => exact List.nil_lt_cons _ _
  | cons _ ih =>
    rw [List.flatMap_cons, List.flatMap_cons]
    exact List.append_left_lt ih
  | rel before =>
    rw [List.flatMap_cons, List.flatMap_cons]
    exact utf8EncodeChar_append_lt before _ _

/-- Texts stand in the order of their bytes. -/
theorem bytes_lt_iff {text other : String} : bytes text < bytes other ↔ text < other := by
  have increasing : ∀ {text other : String}, text < other → bytes text < bytes other := by
    intro text other before
    rw [bytes_eq_flatMap, bytes_eq_flatMap]
    exact flatMap_utf8EncodeChar_lt before
  constructor
  · intro before
    by_contra later
    by_cases same : text = other
    · exact List.lt_irrefl _ (same ▸ before)
    · have after : other < text := String.not_le.mp fun below =>
        same (String.le_antisymm below (String.not_lt.mp later))
      exact List.lt_asymm before (increasing after)
  · exact increasing

theorem bytes_le_iff {text other : String} : bytes text ≤ bytes other ↔ text ≤ other := by
  rw [← List.not_lt, bytes_lt_iff, String.not_lt]

end Text

/-- Entries in strictly ascending order of the bytes of their names. -/
def InNameOrder {α : Type} (entries : List (String × α)) : Prop :=
  entries.Pairwise fun entry other => Text.bytes entry.1 < Text.bytes other.1

def nameLe {α : Type} (entry other : String × α) : Bool :=
  Text.bytes entry.1 ≤ Text.bytes other.1

/-- Entries sorted by the bytes of their names. -/
def sortedByName {α : Type} (entries : List (String × α)) : List (String × α) :=
  entries.mergeSort nameLe

section

variable {α : Type} {entries others : List (String × α)}

theorem InNameOrder.names_nodup (ordered : InNameOrder entries) :
    (entries.map Prod.fst).Nodup := by
  apply List.pairwise_map.mpr
  apply ordered.imp
  intro entry other before same
  exact List.lt_irrefl _ (same ▸ before)

/-- Whether entries are in name order goes by their names. -/
theorem InNameOrder.of_names {β : Type} {images : List (String × β)}
    (ordered : InNameOrder entries) (names : images.map Prod.fst = entries.map Prod.fst) :
    InNameOrder images := by
  have ascending : (entries.map Prod.fst).Pairwise fun name other =>
      Text.bytes name < Text.bytes other := List.pairwise_map.mpr ordered
  rw [← names, List.pairwise_map] at ascending
  exact ascending

/-- Entries stand in name order in one way only. -/
theorem InNameOrder.eq_of_mem_iff (ordered : InNameOrder entries) (again : InNameOrder others)
    (members : ∀ entry, entry ∈ entries ↔ entry ∈ others) : entries = others := by
  apply List.Perm.eq_of_pairwise ?_ ordered again
  · rw [List.perm_ext_iff_of_nodup (ordered.names_nodup.of_map _) (again.names_nodup.of_map _)]
    exact members
  · intro entry other _ _ before after
    exact absurd after (List.lt_asymm before)

theorem mem_sortedByName {entry : String × α} : entry ∈ sortedByName entries ↔ entry ∈ entries :=
  List.mem_mergeSort

theorem nameLe_iff {entry other : String × α} :
    nameLe entry other = true ↔ entry.1 ≤ other.1 :=
  decide_eq_true_iff.trans Text.bytes_le_iff

theorem inNameOrder_sortedByName (distinct : (entries.map Prod.fst).Nodup) :
    InNameOrder (sortedByName entries) := by
  have sorted : (sortedByName entries).Pairwise fun entry other => nameLe entry other = true := by
    apply List.pairwise_mergeSort
    · intro first second third
      simpa only [nameLe_iff] using String.le_trans
    · intro entry other
      simpa only [Bool.or_eq_true, nameLe_iff] using String.le_total entry.1 other.1
  have apart : (sortedByName entries).Pairwise fun entry other => entry.1 ≠ other.1 := by
    have names := (List.mergeSort_perm entries nameLe).map Prod.fst
    exact List.pairwise_map.mp (names.nodup_iff.mpr distinct)
  apply (sorted.and apart).imp
  intro entry other both
  have before : entry.1 ≤ other.1 := nameLe_iff.mp both.1
  rw [Text.bytes_lt_iff, ← String.not_le]
  exact fun after => both.2 (String.le_antisymm before after)

end

namespace Fields

variable {α : Type} {lower : Option String} {name : String} {value : α}
  {pairs : List (String × α)}

theorem mem_toList_iff {fields : Fields α lower} :
    (name, value) ∈ fields.toList ↔ fields.find? name = some value := by
  induction fields with
  | nil => simp [toList, find?]
  | cons entry above current rest ih =>
    rw [toList, List.mem_cons, Prod.mk.injEq, ih, find?_cons_eq_some_iff, eq_comm (a := name),
      eq_comm (a := value)]

theorem inNameOrder_toList (fields : Fields α lower) : InNameOrder fields.toList := by
  induction fields with
  | nil => exact .nil
  | cons entry above current rest ih =>
    refine List.pairwise_cons.mpr ⟨?_, ih⟩
    intro other later
    have behind : rest.find? other.1 = some other.2 := mem_toList_iff.mp later
    exact Text.bytes_lt_iff.mpr (above_of_find? behind)

theorem mem_names_iff {fields : Fields α lower} :
    name ∈ fields.toList.map Prod.fst ↔ (fields.find? name).isSome = true := by
  rw [List.mem_map, Option.isSome_iff_exists]
  constructor
  · rintro ⟨⟨_, value⟩, member, rfl⟩
    exact ⟨value, mem_toList_iff.mp member⟩
  · rintro ⟨value, found⟩
    exact ⟨(name, value), mem_toList_iff.mpr found, rfl⟩

/-- A map that has all names of another has the same names when it has as many. -/
theorem sameNames_iff_size_eq {β : Type} {upper : Option String} {fields : Fields α lower}
    {others : Fields β upper}
    (included : ∀ name, (fields.find? name).isSome = true → (others.find? name).isSome = true) :
    fields.SameNames others ↔ fields.size = others.size := by
  have names := fields.inNameOrder_toList.names_nodup
  have otherNames := others.inNameOrder_toList.names_nodup
  have count : fields.size = (fields.toList.map Prod.fst).length := (List.length_map _).symm
  have otherCount : others.size = (others.toList.map Prod.fst).length := (List.length_map _).symm
  rw [count, otherCount]
  constructor
  · intro same
    apply List.Perm.length_eq
    apply (List.perm_ext_iff_of_nodup names otherNames).mpr
    intro name
    rw [mem_names_iff, mem_names_iff, same]
  · intro length name
    have inside : fields.toList.map Prod.fst ⊆ others.toList.map Prod.fst := by
      intro name member
      exact mem_names_iff.mpr (included name (mem_names_iff.mp member))
    have moved := (List.subperm_of_subset names inside).perm_of_length_le
      (Nat.le_of_eq length.symm)
    rw [Bool.eq_iff_iff, ← mem_names_iff, ← mem_names_iff]
    exact moved.mem_iff

/-- In whatever order the pairs are given, the map lists them sorted. -/
theorem toList_ofList (distinct : (pairs.map Prod.fst).Nodup) :
    (ofList pairs).toList = sortedByName pairs := by
  apply (inNameOrder_toList _).eq_of_mem_iff (inNameOrder_sortedByName distinct)
  intro pair
  exact mem_toList_iff.trans ((find?_ofList_eq_some_iff distinct).trans mem_sortedByName.symm)

theorem toList_ofList_of_inNameOrder (ordered : InNameOrder pairs) :
    (ofList pairs).toList = pairs := by
  apply (inNameOrder_toList _).eq_of_mem_iff ordered
  intro pair
  exact mem_toList_iff.trans (find?_ofList_eq_some_iff ordered.names_nodup)

end Fields

end Conform
