import Conform.Proofs.Equality
import Conform.Proofs.Location
import Mathlib.Data.List.Nodup

/-!
Repair: when the part that an explanation leads to is replaced by one that is accepted there, what
was wrong with that part is gone and everything else stays as it was. No pattern may declare a name
twice for this, since a part would then answer to two patterns.
-/

namespace Conform

/-- The name that an object has for the part that a step leads to. -/
def Segment.name : Segment → String
  | .field name => name
  | .index position => toString position

namespace Pattern

/-- No object, at whatever depth, declares a name twice. -/
inductive DeclaresOnce : Pattern → Prop where
  | anyString : DeclaresOnce .anyString
  | anyNumber : DeclaresOnce .anyNumber
  | anyBoolean : DeclaresOnce .anyBoolean
  | literal {value : Scalar} : DeclaresOnce (.literal value)
  | sequence {element : Pattern} (once : DeclaresOnce element) : DeclaresOnce (.sequence element)
  | object {fields : List (String × Pattern)} (names : (fields.map Prod.fst).Nodup)
      (once : ∀ name field, (name, field) ∈ fields → DeclaresOnce field) :
      DeclaresOnce (.object fields)
  | undefined : DeclaresOnce .undefined

/-- The pattern for the part one step away. -/
def step? : Pattern → Segment → Option Pattern
  | .sequence element, .index _ => some element
  | .object fields, segment => fields.lookup segment.name
  | _, _ => none

/-- The pattern for the part at the end of a path. -/
def at? (pattern : Pattern) (path : Path) : Option Pattern :=
  path.segments.foldlM step? pattern

end Pattern

namespace Value

/-- The value with another part in the place of the one that a step leads to. -/
def setPart : Value → Segment → Value → Value
  | .list items, .index position, other => .list (items.set position other)
  | .record fields, .field name, other => .record (fields.insert name other)
  | value, _, _ => value

/-- The value with another part at the end of some steps. Steps that lead nowhere change nothing. -/
def replaceAt : Value → List Segment → Value → Value
  | _, [], other => other
  | value, segment :: segments, other =>
    match value.step? segment with
    | some part => value.setPart segment (part.replaceAt segments other)
    | none => value

variable {value part other goal : Value} {name : String} {segment : Segment}
  {segments : List Segment}

theorem HasMember.name_eq (member : value.HasMember name segment part) : segment.name = name := by
  cases member <;> rfl

theorem setPart_self (found : value.step? segment = some part) :
    value.setPart segment part = value := by
  cases value with
  | scalar value => rfl
  | list items =>
    cases segment with
    | field name => rfl
    | index position =>
      obtain ⟨inside, rfl⟩ := List.getElem?_eq_some_iff.mp found
      exact congrArg list (List.set_getElem_self inside)
  | record fields =>
    cases segment with
    | index position => rfl
    | field name =>
      apply congrArg record
      apply Fields.ext
      intro other
      rw [Fields.find?_insert]
      by_cases same : name = other
      · rw [if_pos same, ← same]
        exact found.symm
      · rw [if_neg same]

theorem step?_setPart (found : value.step? segment = some part) (other : Value) :
    (value.setPart segment other).step? segment = some other := by
  cases value with
  | scalar value => cases segment <;> cases found
  | list items =>
    cases segment with
    | field name => cases found
    | index position =>
      obtain ⟨inside, _⟩ := List.getElem?_eq_some_iff.mp found
      exact List.getElem?_set_self inside
  | record fields =>
    cases segment with
    | index position => cases found
    | field name =>
      change (fields.insert name other).find? name = some other
      rw [Fields.find?_insert, if_pos rfl]

theorem HasMember.setPart (member : value.HasMember name segment part) (other : Value) :
    (value.setPart segment other).HasMember name segment other := by
  have set := step?_setPart member.step?_eq other
  cases member with
  | item narrow found => exact .item narrow set
  | field found => exact .field set

/-- What another name stands for is not touched. -/
theorem member?_setPart_of_ne (different : name ≠ segment.name) :
    (value.setPart segment other).member? name = value.member? name := by
  cases value with
  | scalar value => rfl
  | list items =>
    cases segment with
    | field entry => rfl
    | index position =>
      change ((position? name).bind fun place => (items.set position other)[place]?) = _
      cases read : position? name with
      | none => simp [member?, read]
      | some place =>
        have apart : position ≠ place := by
          intro same
          exact different (same ▸ (toString_of_position? read).1).symm
        simp [member?, read, List.getElem?_set_ne apart]
  | record fields =>
    cases segment with
    | index position => rfl
    | field entry =>
      change (fields.insert entry other).find? name = _
      rw [Fields.find?_insert]
      exact if_neg (Ne.symm different)

theorem segment_setPart : (value.setPart segment other).segment name = value.segment name := by
  cases value with
  | scalar value => rfl
  | list items =>
    cases segment with
    | field entry => rfl
    | index position =>
      simp only [setPart, Value.segment]
      cases position? name <;> rfl
  | record fields => cases segment <;> rfl

theorem isPrimitive_setPart : (value.setPart segment other).isPrimitive = value.isPrimitive := by
  cases value <;> cases segment <;> rfl

theorem replaceAt_cons (found : value.step? segment = some part) :
    value.replaceAt (segment :: segments) other =
      value.setPart segment (part.replaceAt segments other) := by
  rw [replaceAt, found]

theorem replaceAt_self (found : value.at? ⟨segments⟩ = some goal) :
    value.replaceAt segments goal = value := by
  induction segments generalizing value with
  | nil => exact (Option.some.inj found).symm
  | cons segment segments ih =>
    rw [at?_cons] at found
    obtain ⟨part, step, inside⟩ := Option.bind_eq_some_iff.mp found
    rw [replaceAt_cons step, ih inside, setPart_self step]

theorem at?_replaceAt (found : value.at? ⟨segments⟩ = some goal) :
    (value.replaceAt segments other).at? ⟨segments⟩ = some other := by
  induction segments generalizing value with
  | nil => rfl
  | cons segment segments ih =>
    rw [at?_cons] at found ⊢
    obtain ⟨part, step, inside⟩ := Option.bind_eq_some_iff.mp found
    rw [replaceAt_cons step, step?_setPart step, Option.bind_some]
    exact ih inside

end Value

section

variable {pattern field target : Pattern} {value part goal other : Value} {segment : Segment}
  {segments : List Segment} {mismatch : Mismatch} {name : String}
  {fields : List (String × Pattern)}

theorem Descends.declaresOnce (step : Descends pattern value segment field part)
    (once : pattern.DeclaresOnce) : field.DeclaresOnce := by
  cases step with
  | item found =>
    cases once with
    | sequence once => exact once
  | member declared satisfiable present =>
    cases once with
    | object names once => exact once _ _ declared

theorem exists_only_declaration (names : (fields.map Prod.fst).Nodup)
    (declared : (name, field) ∈ fields) :
    ∃ before after, fields = before ++ (name, field) :: after ∧
      ∀ entry ∈ before ++ after, entry.1 ≠ name := by
  obtain ⟨before, after, rfl⟩ := List.append_of_mem declared
  rw [List.map_append, List.map_cons, List.nodup_middle, List.nodup_cons, ← List.map_append] at names
  refine ⟨before, after, rfl, ?_⟩
  intro entry around same
  exact names.1 (List.mem_map.mpr ⟨entry, around, same⟩)

/-- Where no name is declared twice, a step leads to one pattern. -/
theorem Descends.pattern_step?_eq (step : Descends pattern value segment field part)
    (once : pattern.DeclaresOnce) : pattern.step? segment = some field := by
  cases step with
  | item found => rfl
  | @member fields name _ _ _ _ declared satisfiable present =>
    cases once with
    | object names once =>
      obtain ⟨before, after, rfl, different⟩ := exists_only_declaration names declared
      apply List.lookup_eq_some_iff.mpr
      refine ⟨before, after, by rw [present.name_eq], ?_⟩
      intro entry early
      rw [present.name_eq, bne_iff_ne]
      exact (different entry (List.mem_append_left _ early)).symm

theorem Reaches.pattern_at?_eq (path : Reaches pattern value segments target goal)
    (once : pattern.DeclaresOnce) : pattern.at? ⟨segments⟩ = some target := by
  induction path with
  | here => rfl
  | step first rest ih =>
    rw [Pattern.at?, List.foldlM_cons, first.pattern_step?_eq once]
    exact ih (first.declaresOnce once)

/-- What is wrong with a part some steps away, told of the whole. -/
def Mismatch.below (segments : List Segment) (mismatch : Mismatch) : Mismatch :=
  ⟨⟨segments ++ mismatch.path.segments⟩, mismatch.reason⟩

theorem Mismatch.below_nil : Mismatch.below [] = id := rfl

theorem Mismatch.below_singleton : Mismatch.below [segment] = Mismatch.under segment := rfl

theorem Mismatch.under_comp_below :
    Mismatch.under segment ∘ Mismatch.below segments = Mismatch.below (segment :: segments) := rfl

/-- How the failures of a whole depend on the part at the end of some steps: those of the part
stand together in one block, and those before and behind lie elsewhere and stay as they are. -/
def Isolated (segments : List Segment) (whole own : Value → List Mismatch) : Prop :=
  ∃ before after, (∀ other, whole other = before ++ (own other).map (.below segments) ++ after) ∧
    ∀ failure ∈ before ++ after, ¬ segments <+: failure.path.segments

theorem Isolated.here (own : Value → List Mismatch) : Isolated [] own own := by
  refine ⟨[], [], ?_, nofun⟩
  intro other
  rw [Mismatch.below_nil, List.map_id, List.nil_append, List.append_nil]

theorem Isolated.step {whole inner own : Value → List Mismatch} {replaced : Value → Value}
    (first : Isolated [segment] whole inner)
    (rest : Isolated segments (fun other => inner (replaced other)) own) :
    Isolated (segment :: segments) (fun other => whole (replaced other)) own := by
  obtain ⟨before, after, split, elsewhere⟩ := first
  obtain ⟨left, right, inside, apart⟩ := rest
  refine ⟨before ++ left.map (.under segment), right.map (.under segment) ++ after, ?_, ?_⟩
  · intro other
    simp only [split, inside, Mismatch.below_singleton, List.map_append, List.map_map,
      Mismatch.under_comp_below, List.append_assoc]
  · intro failure member prefixed
    have begins : [segment] <+: failure.path.segments := .trans ⟨segments, rfl⟩ prefixed
    simp only [List.mem_append, List.mem_map] at member
    rcases member with (early | ⟨nested, among, rfl⟩) | (⟨nested, among, rfl⟩ | late)
    · exact elsewhere failure (List.mem_append_left _ early) begins
    · exact apart nested (List.mem_append_left _ among) (List.cons_prefix_cons.mp prefixed).2
    · exact apart nested (List.mem_append_right _ among) (List.cons_prefix_cons.mp prefixed).2
    · exact elsewhere failure (List.mem_append_right _ late) begins

namespace Pattern

/-- What is wrong with an item at a position, told of the list. -/
def itemFailures (element : Pattern) (entry : Value × Nat) : List Mismatch :=
  (element.failures entry.1).map (.under (.index entry.2))

theorem position_eq_of_begins {element : Pattern} {entry : Value × Nat} {position : Nat}
    (wrong : mismatch ∈ element.itemFailures entry)
    (begins : [.index position] <+: mismatch.path.segments) : position = entry.2 := by
  obtain ⟨nested, _, rfl⟩ := List.mem_map.mp wrong
  have same : Segment.index position = .index entry.2 := (List.cons_prefix_cons.mp begins).1
  exact Segment.index.inj same

theorem isolated_item {element : Pattern} {items : List Value} {position : Nat}
    (found : items[position]? = some part) :
    Isolated [.index position]
      (fun other => (sequence element).failures ((Value.list items).setPart (.index position) other))
      element.failures := by
  obtain ⟨inside, _⟩ := List.getElem?_eq_some_iff.mp found
  refine ⟨(items.take position).zipIdx.flatMap element.itemFailures,
    ((items.drop (position + 1)).zipIdx (position + 1)).flatMap element.itemFailures, ?_, ?_⟩
  · intro other
    change (items.set position other).zipIdx.flatMap element.itemFailures = _
    rw [List.set_eq_take_append_cons_drop, if_pos inside, List.zipIdx_append, List.zipIdx_cons,
      List.flatMap_append, List.flatMap_cons, List.length_take_of_le (Nat.le_of_lt inside),
      Nat.zero_add, List.append_assoc]
    rfl
  · intro failure member begins
    rcases List.mem_append.mp member with early | late
    · obtain ⟨entry, there, wrong⟩ := List.mem_flatMap.mp early
      have bound := List.snd_lt_of_mem_zipIdx there
      rw [List.length_take_of_le (Nat.le_of_lt inside)] at bound
      exact absurd (position_eq_of_begins wrong begins) (Nat.ne_of_gt bound)
    · obtain ⟨entry, there, wrong⟩ := List.mem_flatMap.mp late
      have bound := List.le_snd_of_mem_zipIdx there
      exact absurd (position_eq_of_begins wrong begins) (Nat.ne_of_lt bound)

theorem fieldFailures_setPart {own : Value → List Mismatch} (different : name ≠ segment.name) :
    fieldFailures name field own (value.setPart segment other) =
      fieldFailures name field own value := by
  simp only [fieldFailures, Value.member?_setPart_of_ne different, Value.segment_setPart]

theorem not_begins_of_mem_fieldFailures {own : Value → List Mismatch}
    (different : name ≠ segment.name) (wrong : mismatch ∈ fieldFailures name field own value) :
    ¬ [segment] <+: mismatch.path.segments := by
  intro begins
  rcases mem_fieldFailures_iff.mp wrong with ⟨_, rfl⟩ |
    ⟨_, ⟨_, rfl⟩ | ⟨step, part, member, nested, _, rfl⟩⟩
  · cases List.prefix_nil.mp begins
  · cases List.prefix_nil.mp begins
  · have same : segment = step := (List.cons_prefix_cons.mp begins).1
    exact different (same ▸ member.name_eq.symm)

theorem isolated_member (names : (fields.map Prod.fst).Nodup) (declared : (name, field) ∈ fields)
    (satisfiable : field ≠ .undefined) (present : value.HasMember name segment part) :
    Isolated [segment] (fun other => (object fields).failures (value.setPart segment other))
      field.failures := by
  obtain ⟨first, last, rfl, different⟩ := exists_only_declaration names declared
  rw [← present.name_eq] at different
  refine ⟨first.flatMap fun entry => fieldFailures entry.1 entry.2 entry.2.failures value,
    last.flatMap fun entry => fieldFailures entry.1 entry.2 entry.2.failures value, ?_, ?_⟩
  · intro other
    have container : (value.setPart segment other).isPrimitive = false := by
      rw [Value.isPrimitive_setPart]
      cases present <;> rfl
    have unchanged : ∀ entry ∈ first ++ last,
        fieldFailures entry.1 entry.2 entry.2.failures (value.setPart segment other) =
          fieldFailures entry.1 entry.2 entry.2.failures value := by
      intro entry around
      exact fieldFailures_setPart (different entry around)
    change (object _).failures (value.setPart segment other) = _
    rw [failures_object container, List.flatMap_append, List.flatMap_cons,
      fieldFailures_of_hasMember satisfiable (present.setPart other), List.append_assoc,
      List.flatMap_congr fun entry early => unchanged entry (List.mem_append_left _ early),
      List.flatMap_congr fun entry late => unchanged entry (List.mem_append_right _ late)]
    rfl
  · intro failure member
    rw [← List.flatMap_append] at member
    obtain ⟨entry, around, own⟩ := List.mem_flatMap.mp member
    exact not_begins_of_mem_fieldFailures (different entry around) own

theorem isolated_of_descends (once : pattern.DeclaresOnce)
    (step : Descends pattern value segment field part) :
    Isolated [segment] (fun other => pattern.failures (value.setPart segment other))
      field.failures := by
  cases step with
  | item found => exact isolated_item found
  | member declared satisfiable present =>
    cases once with
    | object names once => exact isolated_member names declared satisfiable present

theorem isolated_of_reaches (once : pattern.DeclaresOnce)
    (path : Reaches pattern value segments target goal) :
    Isolated segments (fun other => pattern.failures (value.replaceAt segments other))
      target.failures := by
  induction path with
  | here => exact .here _
  | step first rest ih =>
    simp only [Value.replaceAt_cons first.step?_eq]
    exact (isolated_of_descends once first).step (ih (first.declaresOnce once))

/-- Replacing the part that an explanation leads to by one that is accepted there makes progress.
Of all that was wrong with the whole a first block disappears, which is what was wrong there or
below; the rest stays, nothing is added, and the next explanation is the first of the rest. -/
theorem explain_repaired (once : pattern.DeclaresOnce)
    (found : pattern.explain value = some mismatch) :
    ∃ target block rest, pattern.at? mismatch.path = some target ∧
      pattern.failures value = block ++ rest ∧ block ≠ [] ∧
      (∀ failure ∈ block, mismatch.path.segments <+: failure.path.segments) ∧
      (∀ failure ∈ rest, ¬ mismatch.path.segments <+: failure.path.segments) ∧
      ∀ part, target.accepts part = true →
        (value.replaceAt mismatch.path.segments part).at? mismatch.path = some part ∧
        pattern.failures (value.replaceAt mismatch.path.segments part) = rest ∧
        pattern.explain (value.replaceAt mismatch.path.segments part) = rest.head? := by
  obtain ⟨target, goal, path, there, holds⟩ := explain_located found
  obtain ⟨before, after, split, elsewhere⟩ := isolated_of_reaches once path
  have whole : pattern.failures (value.replaceAt mismatch.path.segments goal) = _ := split goal
  rw [Value.replaceAt_self there] at whole
  have first : (pattern.failures value).head? = some mismatch := explain_eq_head? ▸ found
  have outside : mismatch ∉ before ++ after := by
    intro around
    exact elsewhere mismatch around List.prefix_rfl
  have nothing : before = [] := by
    cases before with
    | nil => rfl
    | cons failure before =>
      rw [whole] at first
      cases first
      exact absurd List.mem_cons_self outside
  subst nothing
  refine ⟨target, _, after, path.pattern_at?_eq once, whole, ?_, ?_, elsewhere, ?_⟩
  · intro empty
    rw [whole, empty] at first
    exact outside (List.mem_of_head? first)
  · intro failure member
    obtain ⟨inner, _, rfl⟩ := List.mem_map.mp member
    exact List.prefix_append _ _
  · intro part accepted
    have clean : pattern.failures (value.replaceAt mismatch.path.segments part) = _ := split part
    rw [(failures_eq_nil_iff target part).mpr accepted] at clean
    refine ⟨Value.at?_replaceAt there, clean, ?_⟩
    rw [explain_eq_head?, clean]
    rfl

/-- An item of the wrong kind in a field: the other one, and the field that is undefined, remain. -/
theorem explain_repaired_item :
    (object [("a", .sequence .anyNumber), ("b", .undefined)]).DeclaresOnce ∧
      (object [("a", .sequence .anyNumber), ("b", .undefined)]).explain
          (.ofPairs [("a", .list [.ofInt 1, .string "x", .null])]) =
        some ⟨⟨[.field "a", .index 1]⟩, .expectedKind .number .string⟩ ∧
      anyNumber.accepts (.ofInt 2) = true ∧
      ∃ block, block ≠ [] ∧
        (object [("a", .sequence .anyNumber), ("b", .undefined)]).failures
            (.ofPairs [("a", .list [.ofInt 1, .string "x", .null])]) =
          block ++ (object [("a", .sequence .anyNumber), ("b", .undefined)]).failures
            ((Value.ofPairs [("a", .list [.ofInt 1, .string "x", .null])]).replaceAt
              [.field "a", .index 1] (.ofInt 2)) := by
  have once : (object [("a", .sequence .anyNumber), ("b", .undefined)]).DeclaresOnce := by
    refine .object (by decide) ?_
    intro name field declared
    simp only [List.mem_cons, Prod.mk.injEq, List.not_mem_nil, or_false] at declared
    rcases declared with ⟨_, rfl⟩ | ⟨_, rfl⟩
    · exact .sequence .anyNumber
    · exact .undefined
  have found : (object [("a", .sequence .anyNumber), ("b", .undefined)]).explain
      (.ofPairs [("a", .list [.ofInt 1, .string "x", .null])]) =
        some ⟨⟨[.field "a", .index 1]⟩, .expectedKind .number .string⟩ := rfl
  obtain ⟨target, block, rest, reached, whole, some, _, _, repaired⟩ := explain_repaired once found
  cases reached
  refine ⟨once, found, by decide, block, some, ?_⟩
  rw [(repaired (.ofInt 2) (by decide)).2.1]
  exact whole

end Pattern

end

end Conform
