/-!
Finite maps from names to data, kept in ascending name order.

The order is part of the type: a map is indexed by a name that lies below all of its own, so a
name occurs at most once and two maps with the same entries are the same map.
-/

namespace Conform

/-- A name lies above a bound; every name lies above the absent bound. -/
def Above : Option String → String → Prop
  | none, _ => True
  | some bound, name => bound < name

instance : (lower : Option String) → (name : String) → Decidable (Above lower name)
  | none, _ => .isTrue trivial
  | some bound, name => inferInstanceAs (Decidable (bound < name))

theorem Above.trans {lower : Option String} {middle name : String} (first : Above lower middle)
    (second : middle < name) : Above lower name := by
  cases lower with
  | none => trivial
  | some bound => exact String.lt_trans first second

/-- The entries above `lower`, in ascending order of their names. -/
inductive Fields (α : Type) : Option String → Type where
  | nil {lower : Option String} : Fields α lower
  | cons {lower : Option String} (name : String) (above : Above lower name) (value : α)
      (rest : Fields α (some name)) : Fields α lower

private theorem lt_of_ne_of_not_lt {left right : String} (different : left ≠ right)
    (notBelow : ¬ left < right) : right < left := by
  rcases String.le_total left right with below | below
  · exact absurd (String.le_antisymm below (String.not_lt.mp notBelow)) different
  · exact String.not_le.mp fun other => different (String.le_antisymm other below)

namespace Fields

variable {α β : Type} {lower : Option String}

def toList {lower : Option String} : Fields α lower → List (String × α)
  | .nil => []
  | .cons name _ value rest => (name, value) :: rest.toList

def size (fields : Fields α lower) : Nat :=
  fields.toList.length

def find? (name : String) {lower : Option String} : Fields α lower → Option α
  | .nil => none
  | .cons entry _ value rest => if entry = name then some value else rest.find? name

def contains (name : String) (fields : Fields α lower) : Bool :=
  (fields.find? name).isSome

/-- A map above a bound is also a map above every smaller bound. -/
def weaken {middle : String} (below : Above lower middle) : Fields α (some middle) → Fields α lower
  | .nil => .nil
  | .cons name above value rest => .cons name (below.trans above) value rest

/-- Sets the value of a name, in its place in the order. -/
def insertAbove (name : String) (value : α) {lower : Option String} (above : Above lower name) :
    Fields α lower → Fields α lower
  | .nil => .cons name above value .nil
  | .cons entry entryAbove current rest =>
    if same : entry = name then .cons entry entryAbove value rest
    else if before : name < entry then .cons name above value (.cons entry before current rest)
    else .cons entry entryAbove current
      (rest.insertAbove name value (lt_of_ne_of_not_lt (Ne.symm same) before))

def insert (name : String) (value : α) (fields : Fields α none) : Fields α none :=
  fields.insertAbove name value trivial

def erase (name : String) {lower : Option String} : Fields α lower → Fields α lower
  | .nil => .nil
  | .cons entry above value rest =>
    if entry = name then rest.weaken above else .cons entry above value (rest.erase name)

/-- The map of a list of pairs; of several values for one name the last is kept. -/
def ofList (pairs : List (String × α)) : Fields α none :=
  pairs.foldl (fun fields pair => fields.insert pair.1 pair.2) .nil

def map (f : α → β) {lower : Option String} : Fields α lower → Fields β lower
  | .nil => .nil
  | .cons name above value rest => .cons name above (f value) (rest.map f)

/-- Runs a step that may fail on every value, in name order. -/
def mapM {m : Type → Type} [Monad m] (f : α → m β) {lower : Option String} :
    Fields α lower → m (Fields β lower)
  | .nil => pure .nil
  | .cons name above value rest => do
    let image ← f value
    let images ← rest.mapM f
    return .cons name above image images

instance : EmptyCollection (Fields α none) := ⟨.nil⟩

instance : Inhabited (Fields α lower) := ⟨.nil⟩

@[simp]
theorem find?_weaken {middle : String} (below : Above lower middle)
    (fields : Fields α (some middle)) (name : String) :
    (fields.weaken below).find? name = fields.find? name := by
  cases fields <;> rfl

@[simp]
theorem find?_map (f : α → β) (fields : Fields α lower) (name : String) :
    (fields.map f).find? name = (fields.find? name).map f := by
  induction fields with
  | nil => rfl
  | cons entry above value rest ih =>
    simp only [map, find?]
    split
    · rfl
    · exact ih

theorem map_map {γ : Type} (g : β → γ) (f : α → β) (fields : Fields α lower) :
    (fields.map f).map g = fields.map fun value => g (f value) := by
  induction fields with
  | nil => rfl
  | cons entry above value rest ih => rw [map, map, map, ih]

@[simp]
theorem find?_insertAbove (name other : String) (value : α) (above : Above lower name)
    (fields : Fields α lower) :
    (fields.insertAbove name value above).find? other =
      if name = other then some value else fields.find? other := by
  induction fields with
  | nil => rfl
  | cons entry entryAbove current rest ih =>
    simp only [insertAbove]
    split
    · rename_i same
      subst same
      simp only [find?]
      split <;> rfl
    · split
      · rfl
      · simp only [find?]
        split
        · rename_i different _ here
          exact (if_neg fun same => different (here.trans same.symm)).symm
        · exact ih _

end Fields

end Conform
