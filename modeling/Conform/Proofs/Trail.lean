import Conform.Proofs.Failures

/-!
What a walk does to the trail that it came along: it takes off the steps that it put on itself, and
no others. To see the trail in between, the walk is told over again for any way to keep a trail,
and run with one that is watched.
-/

namespace Conform

/-- A way to keep a trail, which may remember more than the trail. -/
structure Track (σ : Type) where
  push : Segment → σ → σ
  pop : σ → σ
  trail : σ → Trail
  trail_push : ∀ segment state, trail (push segment state) = segment :: trail state
  trail_pop : ∀ state, trail (pop state) = (trail state).tail

/-- Goes on with a walk that has not been stopped. -/
def Explanation.andThen {σ : Type} (answer : Option Reason × σ) (next : σ → Option Reason × σ) :
    Option Reason × σ :=
  match answer with
  | (some reason, left) => (some reason, left)
  | (none, left) => next left

open Explanation

namespace Track

variable {σ : Type}

/-- Enters a part and comes back, unless something is wrong there. -/
def inside (track : Track σ) (segment : Segment) (walk : σ → Option Reason × σ) (state : σ) :
    Option Reason × σ :=
  andThen (walk (track.push segment state)) fun left => (none, track.pop left)

def walkItems (track : Track σ) (walk : Value → σ → Option Reason × σ) :
    Nat → List Value → σ → Option Reason × σ
  | _, [], state => (none, state)
  | position, item :: items, state =>
    andThen (track.inside (.index position) (walk item) state) fun left =>
      track.walkItems walk (position + 1) items left

/-- What an answer shows to those who see no more than the trail. -/
def seen (track : Track σ) (answer : Option Reason × σ) : Option Reason × Trail :=
  (answer.1, track.trail answer.2)

end Track

mutual

/-- The walk with its trail kept in a given way. -/
def Pattern.walkOn {σ : Type} (track : Track σ) : Pattern → Value → σ → Option Reason × σ
  | .anyString, value, state => (expectKind value .string, state)
  | .anyBoolean, value, state => (expectKind value .boolean, state)
  | .anyNumber, value, state => (expectNumber value, state)
  | .sequence element, .list items, state =>
    track.walkItems (fun item state => element.walkOn track item state) 0 items state
  | .sequence _, value, state => (some (.notASequence value.kind), state)
  | .literal expected, value, state => (expectLiteral expected value, state)
  | .object fields, value, state =>
    if value.isPrimitive then (some (.notARecord value.kind), state)
    else Pattern.walkFieldsOn track fields value state
  | .undefined, _, state => (some .unsatisfiable, state)

def Pattern.walkFieldsOn {σ : Type} (track : Track σ) :
    List (String × Pattern) → Value → σ → Option Reason × σ
  | [], _, state => (none, state)
  | (name, field) :: fields, value, state =>
    if field.isUndefined then (some (.undefinedField name), state)
    else
      match value.member? name with
      | none => (some (.missingField name), state)
      | some part =>
        andThen (track.inside (value.segment name) (fun state => field.walkOn track part state)
          state) fun left => Pattern.walkFieldsOn track fields value left

end

section

variable {σ : Type} {track : Track σ} {segment : Segment} {value : Value}
  {fields : List (String × Pattern)}

namespace Explanation

theorem inside_eq_andThen (walk : Trail → Option Reason × Trail) (trail : Trail) :
    inside segment walk trail =
      andThen (walk (segment :: trail)) fun left => (none, left.tail) := by
  rw [inside]
  obtain ⟨stopped, left⟩ := walk (segment :: trail)
  cases stopped <;> rfl

theorem walkItems_cons_eq_andThen (walk : Value → Trail → Option Reason × Trail) (position : Nat)
    (item : Value) (items : List Value) (trail : Trail) :
    walkItems walk position (item :: items) trail =
      andThen (inside (.index position) (walk item) trail) fun left =>
        walkItems walk (position + 1) items left := by
  rw [walkItems]
  obtain ⟨stopped, left⟩ := inside (.index position) (walk item) trail
  cases stopped <;> rfl

end Explanation

theorem Pattern.walkFields_cons_eq_andThen {name : String} {field : Pattern} {part : Value}
    (satisfiable : field.isUndefined = false) (present : value.member? name = some part)
    (trail : Trail) :
    walkFields ((name, field) :: fields) value trail =
      andThen (inside (value.segment name) (fun trail => field.walk part trail) trail) fun left =>
        walkFields fields value left := by
  simp only [walkFields, satisfiable, present, Bool.false_eq_true, if_false]
  obtain ⟨stopped, left⟩ := inside (value.segment name) (fun trail => field.walk part trail) trail
  cases stopped <;> rfl

namespace Track

theorem seen_andThen {next : σ → Option Reason × σ} (plain : Trail → Option Reason × Trail)
    (same : ∀ left, track.seen (next left) = plain (track.trail left))
    (answer : Option Reason × σ) :
    track.seen (andThen answer next) = andThen (track.seen answer) plain := by
  obtain ⟨stopped, left⟩ := answer
  cases stopped with
  | some reason => rfl
  | none => exact same left

theorem seen_inside {walk : σ → Option Reason × σ} {plain : Trail → Option Reason × Trail}
    (same : ∀ state, track.seen (walk state) = plain (track.trail state)) (state : σ) :
    track.seen (track.inside segment walk state) =
      Explanation.inside segment plain (track.trail state) := by
  have back : ∀ left, track.seen (none, track.pop left) = (none, (track.trail left).tail) :=
    fun left => congrArg (Prod.mk none) (track.trail_pop left)
  rw [inside, seen_andThen (fun trail => (none, trail.tail)) back, same, track.trail_push,
    inside_eq_andThen]

theorem seen_walkItems {walk : Value → σ → Option Reason × σ}
    {plain : Value → Trail → Option Reason × Trail}
    (same : ∀ item state, track.seen (walk item state) = plain item (track.trail state))
    (position : Nat) (items : List Value) (state : σ) :
    track.seen (track.walkItems walk position items state) =
      Explanation.walkItems plain position items (track.trail state) := by
  induction items generalizing position state with
  | nil => rfl
  | cons item items ih =>
    rw [walkItems, seen_andThen _ (ih (position + 1)), seen_inside (same item),
      walkItems_cons_eq_andThen]

end Track

namespace Pattern

theorem seen_walkFieldsOn
    (same : ∀ name field, (name, field) ∈ fields → ∀ value state,
      track.seen (field.walkOn track value state) = field.walk value (track.trail state))
    (state : σ) :
    track.seen (walkFieldsOn track fields value state) =
      walkFields fields value (track.trail state) := by
  induction fields generalizing state with
  | nil => rfl
  | cons entry fields ih =>
    obtain ⟨name, field⟩ := entry
    obtain ⟨own, others⟩ := forall_field_cons.mp same
    cases undefined : field.isUndefined with
    | true => simp only [walkFieldsOn, walkFields, undefined, if_true, Track.seen]
    | false =>
      cases present : value.member? name with
      | none => simp [walkFieldsOn, walkFields, undefined, present, Track.seen]
      | some part =>
        simp only [walkFieldsOn, undefined, present, Bool.false_eq_true, if_false]
        rw [Track.seen_andThen _ (ih others), Track.seen_inside (own part),
          walkFields_cons_eq_andThen undefined present]

/-- However its trail is kept, the walk does what it does with the trail alone. -/
theorem seen_walkOn (pattern : Pattern) (value : Value) (state : σ) :
    track.seen (pattern.walkOn track value state) = pattern.walk value (track.trail state) := by
  induction pattern generalizing value state with
  | anyString | anyBoolean | anyNumber | literal | undefined => rfl
  | sequence element ih =>
    cases value with
    | list items => exact Track.seen_walkItems ih 0 items state
    | scalar | record => rfl
  | object fields ih =>
    rw [walkOn, walk]
    split
    · rfl
    · exact seen_walkFieldsOn ih state

end Pattern

end

/-- A trail together with all that it has been since it is watched, the latest first. -/
structure Watched where
  current : Trail
  stages : List Trail

def Watched.become (watched : Watched) (trail : Trail) : Watched :=
  ⟨trail, trail :: watched.stages⟩

def Track.watched : Track Watched where
  push segment watched := watched.become (segment :: watched.current)
  pop watched := watched.become watched.current.tail
  trail := Watched.current
  trail_push _ _ := rfl
  trail_pop _ := rfl

/-- All that the trail becomes during a walk, the latest first. -/
def Pattern.stages (pattern : Pattern) (value : Value) (trail : Trail) : List Trail :=
  (pattern.walkOn .watched value ⟨trail, []⟩).2.stages

/-- From one state to a later one a watched trail has only been such as go on from a base. -/
def Watched.StaysOn (base : Trail) (start finish : Watched) : Prop :=
  ∃ later, finish.stages = later ++ start.stages ∧ ∀ stage ∈ later, base <:+ stage

/-- What a walk does to a watched trail: it comes back unless something was wrong, and in the
meantime nothing is missing of what there was at first. -/
structure Watched.Kept (start : Watched) (answer : Option Reason × Watched) : Prop where
  back : answer.1 = none → answer.2.current = start.current
  staysOn : StaysOn start.current start answer.2

namespace Watched

variable {base : Trail} {start middle finish : Watched} {answer : Option Reason × Watched}
  {segment : Segment} {value : Value} {fields : List (String × Pattern)}

theorem StaysOn.refl (base : Trail) (start : Watched) : StaysOn base start start :=
  ⟨[], rfl, nofun⟩

theorem StaysOn.trans (first : StaysOn base start middle) (rest : StaysOn base middle finish) :
    StaysOn base start finish := by
  obtain ⟨early, stages, above⟩ := first
  obtain ⟨late, stagesToo, aboveToo⟩ := rest
  refine ⟨late ++ early, ?_, ?_⟩
  · rw [stagesToo, stages, List.append_assoc]
  · intro stage member
    rcases List.mem_append.mp member with after | before
    · exact aboveToo stage after
    · exact above stage before

theorem StaysOn.weaken {longer : Trail} (stays : StaysOn longer start finish)
    (part : base <:+ longer) : StaysOn base start finish := by
  obtain ⟨later, stages, above⟩ := stays
  exact ⟨later, stages, fun stage member => part.trans (above stage member)⟩

theorem staysOn_become {trail : Trail} (part : base <:+ trail) (start : Watched) :
    StaysOn base start (start.become trail) :=
  ⟨[trail], rfl, List.forall_mem_singleton.mpr part⟩

theorem Kept.still (answer : Option Reason) : start.Kept (answer, start) :=
  ⟨fun _ => rfl, .refl _ _⟩

theorem Kept.andThen {next : Watched → Option Reason × Watched} (first : start.Kept answer)
    (rest : ∀ left : Watched, left.Kept (next left)) :
    start.Kept (Explanation.andThen answer next) := by
  obtain ⟨stopped, left⟩ := answer
  cases stopped with
  | some reason => exact first
  | none =>
    have same : left.current = start.current := first.back rfl
    exact ⟨fun passed => ((rest left).back passed).trans same,
      first.staysOn.trans (same ▸ (rest left).staysOn)⟩

/-- The step that is taken off is the one that was put on. -/
theorem Kept.inside {walk : Watched → Option Reason × Watched}
    (kept : ∀ start : Watched, start.Kept (walk start)) (start : Watched) :
    start.Kept (Track.watched.inside segment walk start) := by
  have longer : start.current <:+ segment :: start.current := List.suffix_cons _ _
  have entered := kept (Track.watched.push segment start)
  have stays : StaysOn start.current start (walk (Track.watched.push segment start)).2 :=
    (staysOn_become longer start).trans (entered.staysOn.weaken longer)
  rw [Track.inside]
  cases walked : walk (Track.watched.push segment start) with
  | mk stopped left =>
    rw [walked] at entered stays
    cases stopped with
    | some reason => exact ⟨nofun, stays⟩
    | none =>
      have back : left.current.tail = start.current := congrArg List.tail (entered.back rfl)
      exact ⟨fun _ => back, stays.trans (staysOn_become (back ▸ List.suffix_rfl) left)⟩

theorem Kept.walkItems {walk : Value → Watched → Option Reason × Watched}
    (kept : ∀ item (start : Watched), start.Kept (walk item start)) (position : Nat)
    (items : List Value) (start : Watched) :
    start.Kept (Track.watched.walkItems walk position items start) := by
  induction items generalizing position start with
  | nil => exact .still none
  | cons item items ih => exact .andThen (.inside (kept item) start) (ih (position + 1))

theorem Kept.walkFieldsOn
    (kept : ∀ name field, (name, field) ∈ fields → ∀ value (start : Watched),
      start.Kept (field.walkOn .watched value start)) (start : Watched) :
    start.Kept (Pattern.walkFieldsOn .watched fields value start) := by
  induction fields generalizing start with
  | nil => exact .still none
  | cons entry fields ih =>
    obtain ⟨name, field⟩ := entry
    obtain ⟨own, others⟩ := Pattern.forall_field_cons.mp kept
    rw [Pattern.walkFieldsOn]
    split
    · exact .still _
    · cases value.member? name with
      | none => exact .still _
      | some part => exact .andThen (.inside (own part) start) (ih others)

theorem Kept.walkOn (pattern : Pattern) (value : Value) (start : Watched) :
    start.Kept (pattern.walkOn .watched value start) := by
  induction pattern generalizing value start with
  | anyString | anyBoolean | anyNumber | literal | undefined => exact .still _
  | sequence element ih =>
    cases value with
    | list items => exact .walkItems ih 0 items start
    | scalar | record => exact .still _
  | object fields ih =>
    rw [Pattern.walkOn]
    split
    · exact .still _
    · exact .walkFieldsOn ih start

end Watched

namespace Pattern

variable {pattern : Pattern} {value : Value} {trail : Trail}

/-- A walk stops where the explanation does, whatever trail it came along. -/
theorem walk_eq_stop_explain : pattern.walk value trail = stop trail (pattern.explain value) := by
  rw [walk_eq_stop, explain_eq_head?]

theorem suffix_of_mem_stages {stage : Trail} (member : stage ∈ pattern.stages value trail) :
    trail <:+ stage := by
  obtain ⟨later, stages, above⟩ := (Watched.Kept.walkOn pattern value ⟨trail, []⟩).staysOn
  apply above stage
  rw [Pattern.stages, stages] at member
  exact (List.append_nil later) ▸ member

/-- A walk gives the same answer on every trail. It leaves the trail as it was, or continued by the
path of the explanation; and at no time in between is a step of the trail missing or changed. -/
theorem walk_keeps_trail (pattern : Pattern) (value : Value) (trail : Trail) :
    (∀ other, (pattern.walk value other).1 = (pattern.walk value trail).1) ∧
    ((pattern.walk value trail).1 = none → (pattern.walk value trail).2 = trail) ∧
    (∀ reason, (pattern.walk value trail).1 = some reason → ∃ path,
      pattern.explain value = some ⟨path, reason⟩ ∧
        (pattern.walk value trail).2.reverse = trail.reverse ++ path.segments) ∧
    Track.watched.seen (pattern.walkOn .watched value ⟨trail, []⟩) = pattern.walk value trail ∧
    ∀ stage ∈ pattern.stages value trail, trail.reverse <+: stage.reverse := by
  refine ⟨?reason, ?passed, ?stopped, seen_walkOn pattern value _, ?stages⟩
  case reason =>
    intro other
    rw [walk_eq_stop_explain, walk_eq_stop_explain]
    cases pattern.explain value <;> rfl
  case passed =>
    rw [walk_eq_stop_explain]
    cases pattern.explain value with
    | none => exact fun _ => rfl
    | some mismatch => nofun
  case stopped =>
    intro reason stopped
    rw [walk_eq_stop_explain] at stopped ⊢
    cases found : pattern.explain value with
    | none =>
      rw [found] at stopped
      cases stopped
    | some mismatch =>
      rw [found] at stopped
      cases stopped
      exact ⟨mismatch.path, rfl, by simp [stop]⟩
  case stages =>
    intro stage member
    exact List.reverse_prefix.mpr (suffix_of_mem_stages member)

/-- The first field is left behind and the second one stopped in; an item that is right leaves no
step. -/
theorem walk_keeps_trail_second_field :
    ((sequence .anyNumber).walk (.list [.ofInt 1]) [.field "a", .index 2]).1 = none ∧
    ((sequence .anyNumber).walk (.list [.ofInt 1]) [.field "a", .index 2]).2 =
      [.field "a", .index 2] ∧
    ((object [("a", .sequence .anyNumber), ("b", .anyString)]).walk
        (.ofPairs [("a", .list [.ofInt 1]), ("b", .null)]) [.index 2]).1 =
      some (.expectedKind .string .null) ∧
    (∃ path, (object [("a", .sequence .anyNumber), ("b", .anyString)]).explain
        (.ofPairs [("a", .list [.ofInt 1]), ("b", .null)]) =
          some ⟨path, .expectedKind .string .null⟩ ∧
      ((object [("a", .sequence .anyNumber), ("b", .anyString)]).walk
        (.ofPairs [("a", .list [.ofInt 1]), ("b", .null)]) [.index 2]).2.reverse =
          [.index 2] ++ path.segments) ∧
    (object [("a", .sequence .anyNumber), ("b", .anyString)]).stages
        (.ofPairs [("a", .list [.ofInt 1]), ("b", .null)]) [.index 2] =
      [[.field "b", .index 2], [.index 2], [.field "a", .index 2],
        [.index 0, .field "a", .index 2], [.field "a", .index 2]] ∧
    [.index 2] <+: ([.index 0, .field "a", .index 2] : Trail).reverse := by
  obtain ⟨_, passed, _⟩ := walk_keeps_trail (sequence .anyNumber) (.list [.ofInt 1])
    [.field "a", .index 2]
  obtain ⟨_, _, stopped, _, above⟩ := walk_keeps_trail
    (object [("a", .sequence .anyNumber), ("b", .anyString)])
    (.ofPairs [("a", .list [.ofInt 1]), ("b", .null)]) [.index 2]
  have stages : (object [("a", .sequence .anyNumber), ("b", .anyString)]).stages
      (.ofPairs [("a", .list [.ofInt 1]), ("b", .null)]) [.index 2] =
        [[.field "b", .index 2], [.index 2], [.field "a", .index 2],
          [.index 0, .field "a", .index 2], [.field "a", .index 2]] := rfl
  refine ⟨rfl, passed rfl, rfl, stopped _ rfl, stages, above _ ?_⟩
  rw [stages]
  simp

end Pattern

end Conform
