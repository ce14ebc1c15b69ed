import Conform.Pattern.Object
import Conform.Proofs.Overwriting
import Conform.Proofs.Precedence

/-!
Object patterns built call by call: a name keeps the place of its first declaration and has the
pattern of its last.
-/

namespace Conform

namespace Value

theorem isPrimitive_eq_false_iff {value : Value} :
    value.isPrimitive = false ↔ value.kind = .list ∨ value.kind = .record := by
  cases value with
  | scalar value => cases value <;> simp [isPrimitive, kind, Scalar.kind]
  | list | record => simp [isPrimitive, kind]

end Value

namespace ObjectPattern

/-- A call that declares a field. -/
inductive Call where
  | field (name : String) (pattern : Pattern)
  | undefined (name : String)

namespace Call

def apply (object : ObjectPattern) : Call → ObjectPattern
  | .field name pattern => object.field name pattern
  | .undefined name => object.undefined name

/-- What a call declares, where undefined is a pattern like others. -/
def pair : Call → String × Pattern
  | .field name pattern => (name, pattern)
  | .undefined name => (name, .undefined)

end Call

/-- The object pattern that calls build one after the other. -/
def build (calls : List Call) : ObjectPattern :=
  calls.foldl Call.apply .empty

/-- What declarations come to: every name stands once, where it was first declared, and has the
pattern of its last declaration. -/
structure SettledBy (pairs fields : List (String × Pattern)) : Prop where
  distinct : (fields.map Prod.fst).Nodup
  order : fields.map Prod.fst = (pairs.map Prod.fst).eraseDups
  last : ∀ name pattern, (name, pattern) ∈ fields ↔ Prevails name pattern pairs

variable {name other : String} {pattern given : Pattern} {fields pairs : List (String × Pattern)}

theorem redeclare_of_not_mem (fresh : name ∉ fields.map Prod.fst) :
    redeclare name pattern fields = fields ++ [(name, pattern)] := by
  induction fields with
  | nil => rfl
  | cons entry fields ih =>
    rw [List.map_cons, List.mem_cons, not_or] at fresh
    obtain ⟨different, fresh⟩ := fresh
    rw [redeclare, if_neg (Ne.symm different), ih fresh, List.cons_append]

/-- A declaration replaces what was declared under its name and nothing else. -/
theorem mem_redeclare_iff (distinct : (fields.map Prod.fst).Nodup) :
    (name, pattern) ∈ redeclare other given fields ↔
      other = name ∧ given = pattern ∨ other ≠ name ∧ (name, pattern) ∈ fields := by
  induction fields with
  | nil => simp [redeclare, eq_comm]
  | cons entry fields ih =>
    obtain ⟨declared, current⟩ := entry
    obtain ⟨fresh, distinct⟩ := List.nodup_cons.mp distinct
    by_cases same : declared = other
    · subst same
      have absent : declared = name → (name, pattern) ∉ fields := by
        rintro rfl member
        exact fresh (List.mem_map.mpr ⟨_, member, rfl⟩)
      rw [redeclare, if_pos rfl, List.mem_cons, List.mem_cons, Prod.mk.injEq, Prod.mk.injEq]
      grind
    · rw [redeclare, if_neg same, List.mem_cons, List.mem_cons, ih distinct, Prod.mk.injEq]
      grind

theorem fields_ofList_concat (pairs : List (String × Pattern)) (pair : String × Pattern) :
    (ofList (pairs ++ [pair])).fields = redeclare pair.1 pair.2 (ofList pairs).fields := by
  rw [ofList, List.foldl_append]
  rfl

theorem names_ofList (pairs : List (String × Pattern)) :
    (ofList pairs).fields.map Prod.fst = (pairs.map Prod.fst).eraseDups := by
  induction pairs using List.reverseRecOn with
  | nil => rfl
  | append_singleton pairs pair ih =>
    rw [fields_ofList_concat, redeclare_names, ih, List.map_append, List.eraseDups_append]
    by_cases again : pair.1 ∈ pairs.map Prod.fst
    · rw [if_pos (List.mem_eraseDups.mpr again)]
      simp [again, List.removeAll]
    · rw [if_neg (mt List.mem_eraseDups.mp again)]
      simp [again, List.removeAll, List.eraseDups_cons]

theorem mem_ofList_iff :
    (name, pattern) ∈ (ofList pairs).fields ↔ Prevails name pattern pairs := by
  induction pairs using List.reverseRecOn with
  | nil => exact iff_of_false nofun nofun
  | append_singleton pairs pair ih =>
    rw [fields_ofList_concat, mem_redeclare_iff (ofList pairs).distinct, ih, prevails_concat_iff]

/-- Every declaration finds its place in what the declarations come to. -/
theorem settledBy_ofList (pairs : List (String × Pattern)) :
    SettledBy pairs (ofList pairs).fields where
  distinct := (ofList pairs).distinct
  order := names_ofList pairs
  last _ _ := mem_ofList_iff

theorem fields_ofList_of_nodup (distinct : (pairs.map Prod.fst).Nodup) :
    (ofList pairs).fields = pairs := by
  induction pairs using List.reverseRecOn with
  | nil => rfl
  | append_singleton pairs pair ih =>
    rw [List.map_append] at distinct
    obtain ⟨before, _, apart⟩ := List.nodup_append.mp distinct
    have fresh : pair.1 ∉ pairs.map Prod.fst := fun member =>
      apart pair.1 member pair.1 (List.mem_singleton.mpr rfl) rfl
    rw [fields_ofList_concat, ih before, redeclare_of_not_mem fresh]

theorem build_eq_ofList (calls : List Call) : build calls = ofList (calls.map Call.pair) := by
  rw [build, ofList, List.foldl_map]
  congr 1
  funext object call
  cases call <;> rfl

theorem ofFields_eq_object_iff :
    Pattern.ofFields pairs = .object pairs ↔ (pairs.map Prod.fst).Nodup := by
  rw [Pattern.ofFields, toPattern, Pattern.object.injEq]
  constructor
  · intro same
    have distinct := (ofList pairs).distinct
    rwa [same] at distinct
  · exact fields_ofList_of_nodup

/-- A list or a record is accepted when it has, under every declared name, a part that the pattern
declared last accepts. -/
theorem accepts_ofFields_iff {value : Value} :
    (Pattern.ofFields pairs).accepts value = true ↔
      (value.kind = .list ∨ value.kind = .record) ∧
        ∀ name pattern, Prevails name pattern pairs → pattern ≠ .undefined ∧
          ∃ segment part, value.HasMember name segment part ∧ pattern.accepts part = true := by
  rw [Pattern.ofFields, toPattern, Pattern.accepts_object_iff_hasMember,
    Value.isPrimitive_eq_false_iff]
  simp only [mem_ofList_iff]

/-- Whatever calls are made, with whatever names repeated, the last declaration of a name counts, in
the place of its first. The pairs say the same all at once, and they are the object's own fields
when no name is repeated. -/
theorem build_declares_last (calls : List Call) :
    SettledBy (calls.map Call.pair) (build calls).fields ∧
      Pattern.ofFields (calls.map Call.pair) = (build calls).toPattern ∧
      (Pattern.ofFields (calls.map Call.pair) = .object (calls.map Call.pair) ↔
        ((calls.map Call.pair).map Prod.fst).Nodup) ∧
      ∀ value, (build calls).toPattern.accepts value = true ↔
        (value.kind = .list ∨ value.kind = .record) ∧
          ∀ name pattern, Prevails name pattern (calls.map Call.pair) → pattern ≠ .undefined ∧
            ∃ segment part, value.HasMember name segment part ∧ pattern.accepts part = true := by
  rw [build_eq_ofList]
  exact ⟨settledBy_ofList _, rfl, ofFields_eq_object_iff, fun _ => accepts_ofFields_iff⟩

example : (build [.field "a" .anyString, .undefined "b", .field "a" .anyNumber,
    .field "b" .null]).fields = [("a", .anyNumber), ("b", .null)] := by
  rfl

end ObjectPattern

end Conform
