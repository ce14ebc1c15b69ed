import Conform.Pattern

/-!
Object patterns built field by field. A name that is declared again keeps its place and takes the
later pattern.
-/

namespace Conform

/-- Sets the pattern of a name in its place, or declares the name after all others. -/
def redeclare (name : String) (pattern : Pattern) :
    List (String × Pattern) → List (String × Pattern)
  | [] => [(name, pattern)]
  | (declared, current) :: rest =>
    if declared = name then (declared, pattern) :: rest
    else (declared, current) :: redeclare name pattern rest

theorem redeclare_names (name : String) (pattern : Pattern) (fields : List (String × Pattern)) :
    (redeclare name pattern fields).map Prod.fst =
      if name ∈ fields.map Prod.fst then fields.map Prod.fst
      else fields.map Prod.fst ++ [name] := by
  induction fields with
  | nil => simp [redeclare]
  | cons head rest ih =>
    obtain ⟨declared, current⟩ := head
    by_cases same : declared = name
    · simp [redeclare, same]
    · simp only [redeclare, same, ↓reduceIte, List.map_cons, ih, List.mem_cons, Ne.symm same,
        false_or]
      split <;> rfl

structure ObjectPattern where
  fields : List (String × Pattern)
  distinct : (fields.map Prod.fst).Nodup

namespace ObjectPattern

def empty : ObjectPattern := ⟨[], List.nodup_nil⟩

instance : EmptyCollection ObjectPattern := ⟨empty⟩

/-- Declares a field. -/
def field (object : ObjectPattern) (name : String) (pattern : Pattern) : ObjectPattern where
  fields := redeclare name pattern object.fields
  distinct := by
    rw [redeclare_names]
    split
    · exact object.distinct
    · rename_i fresh
      refine List.nodup_append.mpr ⟨object.distinct, by simp, ?_⟩
      intro declared member other same
      rw [List.mem_singleton.mp same]
      exact fun equal => fresh (equal ▸ member)

/-- Declares a field that nothing satisfies. -/
def undefined (object : ObjectPattern) (name : String) : ObjectPattern :=
  object.field name .undefined

def ofList (fields : List (String × Pattern)) : ObjectPattern :=
  fields.foldl (fun object pair => object.field pair.1 pair.2) empty

def toPattern (object : ObjectPattern) : Pattern :=
  .object object.fields

end ObjectPattern

/-- The object pattern of a list of declarations. -/
def Pattern.ofFields (fields : List (String × Pattern)) : Pattern :=
  (ObjectPattern.ofList fields).toPattern

end Conform
