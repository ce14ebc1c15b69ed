import Conform.Proofs.Delimited
import Conform.Proofs.Location
import Conform.Proofs.Naming

/-!
Texts of paths. Names stand in them as they are, yet a name without a period and without an opening
bracket ends where the next step begins, so such a text is the text of one path.
-/

namespace Conform

/-- Whether a character begins a step in the text of a path. -/
def Segment.starts (c : Char) : Bool :=
  c == '.' || c == '['

/-- A name in which no step begins. -/
def Segment.PlainName (name : String) : Prop :=
  ∀ c ∈ name.toList, starts c = false

namespace Path

variable {segments others : List Segment} {path other : Path}

theorem namedBy_cons_iff {usable : String → Prop} {segment : Segment} :
    NamedBy usable ⟨segment :: segments⟩ ↔
      NamedBy usable ⟨[segment]⟩ ∧ NamedBy usable ⟨segments⟩ := by
  simp only [NamedBy, List.mem_cons, List.not_mem_nil, or_false, or_imp, forall_and]

theorem namedBy_field_iff {usable : String → Prop} {name : String} :
    NamedBy usable ⟨[.field name]⟩ ↔ usable name := by
  simp [NamedBy]

/-- The characters of the steps of a path. -/
def stepChars (segments : List Segment) : List Char :=
  segments.flatMap fun segment => segment.toText.toList

theorem toList_toText (path : Path) : path.toText.toList = '$' :: stepChars path.segments := by
  rw [toText, String.toList_append, String.toList_join, List.flatMap_map]
  rfl

theorem stepChars_field (name : String) :
    stepChars (.field name :: segments) = '.' :: (name.toList ++ stepChars segments) := by
  simp [stepChars, Segment.toText]

theorem stepChars_index (position : Nat) :
    stepChars (.index position :: segments) =
      '[' :: (Nat.toDigits 10 position ++ ']' :: stepChars segments) := by
  simp [stepChars, Segment.toText]

theorem stepChars_cons_ne_nil (segment : Segment) (segments : List Segment) :
    stepChars (segment :: segments) ≠ [] := by
  cases segment with
  | field name => simp [stepChars_field]
  | index position => simp [stepChars_index]

theorem stopsAt_stepChars (segments : List Segment) :
    Text.StopsAt Segment.starts (stepChars segments) := by
  cases segments with
  | nil => exact Text.stopsAt_nil
  | cons segment segments =>
    cases segment with
    | field name =>
      rw [stepChars_field]
      exact Text.stopsAt_cons_iff.mpr rfl
    | index position =>
      rw [stepChars_index]
      exact Text.stopsAt_cons_iff.mpr rfl

/-- The first character tells which kind of step it is, and then where the step ends. -/
theorem stepChars_injective (plain : NamedBy Segment.PlainName ⟨segments⟩)
    (plainToo : NamedBy Segment.PlainName ⟨others⟩)
    (same : stepChars segments = stepChars others) : segments = others := by
  induction segments generalizing others with
  | nil =>
    cases others with
    | nil => rfl
    | cons another others => exact absurd same.symm (stepChars_cons_ne_nil another others)
  | cons segment segments ih =>
    obtain ⟨first, rest⟩ := namedBy_cons_iff.mp plain
    cases others with
    | nil => exact absurd same (stepChars_cons_ne_nil segment segments)
    | cons another others =>
      obtain ⟨firstToo, restToo⟩ := namedBy_cons_iff.mp plainToo
      cases segment with
      | field name =>
        cases another with
        | index position => simp [stepChars_field, stepChars_index] at same
        | field otherName =>
          rw [stepChars_field, stepChars_field] at same
          obtain ⟨names, behind⟩ := Text.append_inj_of_stopsAt (namedBy_field_iff.mp first)
            (namedBy_field_iff.mp firstToo) (stopsAt_stepChars segments)
            (stopsAt_stepChars others) (List.cons.inj same).2
          rw [String.toList_inj.mp names, ih rest restToo behind]
      | index position =>
        cases another with
        | field name => simp [stepChars_field, stepChars_index] at same
        | index otherPosition =>
          rw [stepChars_index, stepChars_index] at same
          obtain ⟨rfl, behind⟩ := Text.toDigits_append_inj (by decide) (by decide)
            (fun digit => Nat.digitChar_ne ']' (by decide)) (List.cons.inj same).2
          rw [ih rest restToo behind]

theorem toText_inj (plain : path.NamedBy Segment.PlainName)
    (plainToo : other.NamedBy Segment.PlainName) : path.toText = other.toText ↔ path = other := by
  refine ⟨fun same => ?_, congrArg toText⟩
  rw [← String.toList_inj, toList_toText, toList_toText] at same
  cases path
  cases other
  exact congrArg mk (stepChars_injective plain plainToo (List.cons.inj same).2)

/-- Whatever the names, a position is not written like a field in the same place. -/
theorem toText_index_ne_field (before after later : List Segment) (position : Nat)
    (name : String) :
    toText ⟨before ++ .index position :: after⟩ ≠ toText ⟨before ++ .field name :: later⟩ := by
  intro same
  rw [← String.toList_inj, toList_toText, toList_toText] at same
  have behind := List.append_cancel_left
    ((List.flatMap_append.symm.trans (List.cons.inj same).2).trans List.flatMap_append)
  change stepChars _ = stepChars _ at behind
  simp [stepChars_index, stepChars_field] at behind

end Path

/-- The place of an explanation goes through names of the value. -/
theorem Pattern.explain_namedBy {usable : String → Prop} {pattern : Pattern} {value : Value}
    {mismatch : Mismatch} (named : value.NamedBy usable)
    (found : pattern.explain value = some mismatch) : mismatch.path.NamedBy usable := by
  rw [explain_eq_head?] at found
  obtain ⟨target, goal, reached, holds⟩ := mem_failures_iff.mp (List.mem_of_head? found)
  exact named mismatch.path goal reached.at?_eq

namespace Path

/-- Without periods and opening brackets in the names, a text is the text of one path, so
explanations that lead to different places are written differently; and a position is never written
like a field. -/
theorem toText_identifies :
    (∀ path other : Path, path.NamedBy Segment.PlainName → other.NamedBy Segment.PlainName →
      path.toText = other.toText → path.segments = other.segments) ∧
    (∀ (pattern template : Pattern) (value another : Value) (mismatch wrong : Mismatch),
      value.NamedBy Segment.PlainName → another.NamedBy Segment.PlainName →
      pattern.explain value = some mismatch → template.explain another = some wrong →
      mismatch.path ≠ wrong.path → mismatch.path.toText ≠ wrong.path.toText) ∧
    ∀ (before after later : List Segment) (position : Nat) (name : String),
      toText ⟨before ++ .index position :: after⟩ ≠ toText ⟨before ++ .field name :: later⟩ := by
  refine ⟨?_, ?_, toText_index_ne_field⟩
  · intro path other plain plainToo same
    exact congrArg segments ((toText_inj plain plainToo).mp same)
  · intro pattern template value another mismatch wrong plain plainToo found foundToo apart same
    exact apart ((toText_inj (Pattern.explain_namedBy plain found)
      (Pattern.explain_namedBy plainToo foundToo)).mp same)

/-- Names may be empty, numerals and closing brackets. -/
theorem toText_identifies_odd_names :
    (Pattern.object [("", .object [("]", .sequence .anyNumber)])]).explain
        (.ofPairs [("", .ofPairs [("]", .list [.string "a"])])]) =
      some ⟨⟨[.field "", .field "]", .index 0]⟩, .expectedKind .number .string⟩ ∧
    (Pattern.object [("", .object [("]", .object [("0", .anyNumber)])])]).explain
        (.ofPairs [("", .ofPairs [("]", .ofPairs [("0", .string "a")])])]) =
      some ⟨⟨[.field "", .field "]", .field "0"]⟩, .expectedKind .number .string⟩ ∧
    toText ⟨[.field "", .field "]", .index 0]⟩ ≠ toText ⟨[.field "", .field "]", .field "0"]⟩ := by
  have plain : ∀ name ∈ ["", "0", "]"], Segment.PlainName name := by
    simp [Segment.PlainName, Segment.starts]
  have entry : ∀ name ∈ ["", "0", "]"], ∀ part : Value, part.NamedBy Segment.PlainName →
      (Value.ofPairs [(name, part)]).NamedBy Segment.PlainName :=
    fun name odd part inside =>
      Value.namedBy_ofPairs (List.forall_mem_singleton.mpr ⟨plain name odd, inside⟩)
  have items : (Value.list [.string "a"]).NamedBy Segment.PlainName :=
    Value.namedBy_list_iff.mpr (List.forall_mem_singleton.mpr (Value.namedBy_scalar _))
  have fields : (Value.ofPairs [("0", .string "a")]).NamedBy Segment.PlainName :=
    entry "0" (by simp) _ (Value.namedBy_scalar _)
  refine ⟨rfl, rfl, ?_⟩
  exact toText_identifies.2.1
    (.object [("", .object [("]", .sequence .anyNumber)])])
    (.object [("", .object [("]", .object [("0", .anyNumber)])])]) _ _
    ⟨⟨[.field "", .field "]", .index 0]⟩, .expectedKind .number .string⟩
    ⟨⟨[.field "", .field "]", .field "0"]⟩, .expectedKind .number .string⟩
    (entry "" (by simp) _ (entry "]" (by simp) _ items))
    (entry "" (by simp) _ (entry "]" (by simp) _ fields)) rfl rfl (by decide)

end Path

end Conform
