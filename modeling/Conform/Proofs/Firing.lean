import Conform.Proofs.Selection

/-!
The index of the clause that fires. It is settled by the patterns, the polarities and the guards
alone, and an evaluation is made of it and of the one clause that it names.
-/

namespace Conform

variable {m : Type → Type} {ι α β : Type}

/-- The clause with a transform that does nothing. -/
def Clause.mute [Monad m] (clause : Clause m ι α) : Clause m ι Unit :=
  ⟨clause.pattern, clause.polarity, clause.guard, fun _ => pure ()⟩

/-- What an observer is told of a clause that does not fire: its guard failed, or it passed in
vain. -/
def Clause.passedOver [Inspectable ι] (input : ι) (index : Nat) (clause : Clause m ι α)
    (passed : Bool) : Event :=
  if passed then clause.skipped input index else .guardRejected index

theorem Gives.map [Monad m] [LawfulMonad m] {computation : m α} {result : α}
    (gives : Gives computation result) (f : α → β) : Gives (f <$> computation) (f result) := by
  rw [← bind_pure_comp]
  exact gives.bind (.pure _)

namespace Heading

/-- Whether an unguarded clause of which this is seen fires. -/
def fires (heading : Heading) (value : Value) : Bool :=
  heading.polarity.fires (heading.pattern.accepts value)

/-- A clause that does nothing, with what is seen of an unguarded clause. -/
def clause (heading : Heading) : Clause Id ι Unit :=
  ⟨heading.pattern, heading.polarity, none, fun _ => ()⟩

theorem clause_applies_iff [Inspectable ι] {heading : Heading} {input : ι} :
    heading.clause.Applies input ↔ heading.fires (Inspectable.content input) = true := by
  rw [Clause.applies_iff]
  exact and_iff_right rfl

end Heading

theorem Clause.mute_of_unguarded [Monad m] {clause : Clause m ι α}
    (unguarded : clause.heading.guarded = false) : clause.mute = clause.heading.clause.lift := by
  obtain ⟨pattern, polarity, guard, transform⟩ := clause
  cases guard with
  | none => rfl
  | some guard => cases unguarded

namespace Session

section

variable {input : ι} {before after : List (Declaration m ι α)}

/-- The clauses declared behind others follow them. -/
theorem getElem?_build_append (position : Nat) :
    (build input (before ++ after)).clauses.toList[(build input before).size + position]? =
      (after.filterMap Declaration.clause?)[position]? := by
  rw [clauses_build, List.filterMap_append, size_build,
    List.getElem?_append_right (Nat.le_add_right _ _), Nat.add_sub_cancel_left]

theorem getElem?_build_append_of_lt {index : Nat} (early : index < (build input before).size) :
    (build input (before ++ after)).clauses.toList[index]? =
      (build input before).clauses.toList[index]? := by
  rw [size_build] at early
  rw [clauses_build, clauses_build, List.filterMap_append, List.getElem?_append_left early]

end

section

variable [Monad m] [Observed m]

/-- The index of the clause that fires, with all that is done to find it. -/
def firing [Inspectable ι] (session : Session m ι α) : m (Option Nat) := do
  return (← select session.input 0 session.clauses.toList).map Prod.fst

/-- What an evaluation does once it is known which clause fires, if one does. -/
def conclude (session : Session m ι α) : Option Nat → m (Option α)
  | some index =>
    match session.clauses.toList[index]? with
    | some clause => do
      emit (.fired index clause.heading)
      return some (← clause.transform session.input)
    | none => return none
  | none =>
    match session.fallback with
    | some produce => do
      emit .fallback
      return some (← produce)
    | none => do
      emit .exhausted
      return none

theorem conclude_of_declared {session : Session m ι α} {index : Nat} {clause : Clause m ι α}
    (declared : session.clauses.toList[index]? = some clause) :
    session.conclude (some index) = (do
      emit (.fired index clause.heading)
      return some (← clause.transform session.input)) := by
  rw [conclude, declared]

end

variable [Monad m] [LawfulMonad m] [Observed m] [Inspectable ι]

omit [LawfulMonad m] in
/-- A scan asks the guard of the first clause. The clause fires, or it is passed over. -/
theorem select_cons (input : ι) (start : Nat) (clause : Clause m ι α)
    (clauses : List (Clause m ι α)) :
    select input start (clause :: clauses) = (do
      let passed ← clause.passes input
      if passed && clause.fires input then return some (start, clause)
      else
        emit (clause.passedOver input start passed)
        select input (start + 1) clauses) := by
  rw [select]
  refine congrArg (clause.passes input >>= ·) (funext fun passed => ?_)
  cases passed with
  | false => rfl
  | true => cases clause.fires input <;> rfl

/-- A scan finds nothing or an entry of the list at its position, so whatever comes after it is
asked about nothing else. Positions count from where the scan starts. -/
theorem select_bind_congr {input : ι} {start : Nat} {clauses : List (Clause m ι α)}
    {next other : Option (Nat × Clause m ι α) → m β} (silent : next none = other none)
    (each : ∀ position clause, clauses[position]? = some clause →
      next (some (start + position, clause)) = other (some (start + position, clause))) :
    select input start clauses >>= next = select input start clauses >>= other := by
  induction clauses generalizing start with
  | nil => rw [select, pure_bind, pure_bind, silent]
  | cons clause clauses ih =>
    have later : select input (start + 1) clauses >>= next =
        select input (start + 1) clauses >>= other := by
      refine ih fun position clause found => ?_
      rw [Nat.add_assoc, Nat.add_comm 1]
      exact each (position + 1) clause found
    rw [select_cons, bind_assoc, bind_assoc]
    refine congrArg (clause.passes input >>= ·) (funext fun passed => ?_)
    split
    · rw [pure_bind, pure_bind]
      exact each 0 clause rfl
    · rw [bind_assoc, bind_assoc, later]

/-- The second of two lists is looked at when nothing fires in the first. -/
theorem select_append (input : ι) (start : Nat) (first second : List (Clause m ι α)) :
    select input start (first ++ second) = (do
      match ← select input start first with
      | some found => return some found
      | none => select input (start + first.length) second) := by
  induction first generalizing start with
  | nil =>
    rw [select, pure_bind]
    rfl
  | cons clause first ih =>
    rw [List.cons_append, select_cons, select_cons, bind_assoc]
    refine congrArg (clause.passes input >>= ·) (funext fun passed => ?_)
    split
    · rw [pure_bind]
    · rw [bind_assoc, ih, List.length_cons, Nat.add_right_comm, Nat.add_assoc]

theorem select_mute (input : ι) (start : Nat) (clauses : List (Clause m ι α)) :
    select input start (clauses.map Clause.mute) =
      Option.map (Prod.map id Clause.mute) <$> select input start clauses := by
  induction clauses generalizing start with
  | nil =>
    rw [List.map_nil, select, select, map_pure]
    rfl
  | cons clause clauses ih =>
    have fires : clause.mute.fires input = clause.fires input := rfl
    rw [List.map_cons, select_cons, select_cons, map_bind, ih, fires]
    refine congrArg (clause.passes input >>= ·) (funext fun passed => ?_)
    split
    · rw [map_pure]
      rfl
    · rw [map_bind]
      rfl

theorem firing_eq_select_mute (session : Session m ι α) :
    session.firing =
      Option.map Prod.fst <$> select session.input 0 (session.clauses.toList.map Clause.mute) := by
  rw [firing, select_mute, bind_pure_comp, ← comp_map, Option.map_comp_map]
  rfl

/-- Which clause fires does not depend on what the clauses do. -/
theorem firing_congr {first : Session m ι α} {second : Session m ι β}
    (input : first.input = second.input)
    (clauses : first.clauses.toList.map Clause.mute = second.clauses.toList.map Clause.mute) :
    first.firing = second.firing := by
  rw [firing_eq_select_mute, firing_eq_select_mute, input, clauses]

/-- Later clauses are looked at when no earlier one fires. -/
theorem firing_build_append (input : ι) (before after : List (Declaration m ι α)) :
    (build input (before ++ after)).firing = (do
      match ← (build input before).firing with
      | some index => return some index
      | none => return (← select input (build input before).size
          (after.filterMap Declaration.clause?)).map Prod.fst) := by
  rw [firing, firing, input_build, input_build, clauses_build, clauses_build,
    List.filterMap_append, select_append, size_build, Nat.zero_add, bind_assoc, bind_assoc]
  refine congrArg (_ >>= ·) (funext fun found => ?_)
  cases found <;> simp

/-- An evaluation looks for the clause that fires, and then does what is left to do. -/
theorem evaluate_eq_conclude (session : Session m ι α) :
    session.evaluate = (do
      emit (.evaluation session.size (Inspectable.content session.input).kind)
      session.conclude (← session.firing)) := by
  rw [evaluate, firing]
  refine congrArg (emit _ >>= ·) (funext fun _ => ?_)
  rw [bind_assoc]
  apply select_bind_congr
  · rw [pure_bind]
    rfl
  · intro position clause found
    rw [pure_bind, Option.map_some, conclude, Nat.zero_add, found]

theorem evaluate_settled {session : Session m ι α} {index : Option Nat}
    (gives : Gives session.firing index) :
    ∃ effects : m Unit, session.evaluate = effects >>= fun _ => session.conclude index := by
  obtain ⟨effects, same⟩ := gives
  refine ⟨emit (.evaluation session.size (Inspectable.content session.input).kind) >>= fun _ =>
    effects, ?_⟩
  rw [evaluate_eq_conclude, same]
  simp only [bind_assoc, pure_bind]

theorem evaluate_of_fires {session : Session m ι α} {index : Nat} {clause : Clause m ι α}
    (declared : session.clauses.toList[index]? = some clause)
    (fires : Gives session.firing (some index)) :
    ∃ effects : m Unit, session.evaluate =
      effects >>= fun _ => (do return some (← clause.transform session.input)) := by
  obtain ⟨effects, same⟩ := evaluate_settled fires
  refine ⟨effects >>= fun _ => emit (.fired index clause.heading), ?_⟩
  rw [same, conclude_of_declared declared, bind_assoc]

section

variable {input : ι} {before after : List (Declaration m ι α)} {pattern : Pattern}
  {transform other : ι → m α}

omit [LawfulMonad m] [Inspectable ι] in
/-- What a clause does matters when it is the one that fires. -/
theorem conclude_of_ne {index : Option Nat} (apart : index ≠ some (build input before).size) :
    (build input (before ++ .accept pattern transform :: after)).conclude index =
      (build input (before ++ .accept pattern other :: after)).conclude index := by
  have fallback : (build input (before ++ .accept pattern transform :: after)).fallback =
      (build input (before ++ .accept pattern other :: after)).fallback := by
    rw [fallback_build, fallback_build, List.filterMap_append, List.filterMap_append]
    rfl
  cases index with
  | none => rw [conclude, conclude, fallback]
  | some index =>
    have same :
        (build input (before ++ .accept pattern transform :: after)).clauses.toList[index]? =
          (build input (before ++ .accept pattern other :: after)).clauses.toList[index]? := by
      rcases Nat.lt_or_gt_of_ne fun same => apart (congrArg some same) with early | late
      · rw [getElem?_build_append_of_lt early, getElem?_build_append_of_lt early]
      · obtain ⟨behind, rfl⟩ := Nat.exists_eq_add_of_lt late
        rw [Nat.add_assoc, getElem?_build_append, getElem?_build_append]
        rfl
    rw [conclude, conclude, same, input_build, input_build]

theorem firing_build_accept :
    (build input (before ++ .accept pattern transform :: after)).firing =
      (build input (before ++ .accept pattern other :: after)).firing := by
  apply firing_congr
  · rw [input_build, input_build]
  · rw [clauses_build, clauses_build, List.filterMap_append, List.filterMap_append,
      List.map_append, List.map_append]
    rfl

theorem evaluate_of_ne {index : Option Nat} (apart : index ≠ some (build input before).size)
    (gives : Gives (build input (before ++ .accept pattern transform :: after)).firing index) :
    (build input (before ++ .accept pattern transform :: after)).evaluate =
      (build input (before ++ .accept pattern other :: after)).evaluate := by
  have size : (build input (before ++ .accept pattern transform :: after)).size =
      (build input (before ++ .accept pattern other :: after)).size := by
    rw [size_build, size_build, List.filterMap_append, List.filterMap_append, List.length_append,
      List.length_append]
    rfl
  have concluded : (build input (before ++ .accept pattern transform :: after)).conclude index =
      (build input (before ++ .accept pattern other :: after)).conclude index :=
    conclude_of_ne apart
  have alike : (build input (before ++ .accept pattern transform :: after)).firing =
      (build input (before ++ .accept pattern other :: after)).firing := firing_build_accept
  obtain ⟨effects, same⟩ := gives
  rw [evaluate_eq_conclude, evaluate_eq_conclude, input_build, input_build, size, ← alike, same]
  simp only [bind_assoc, pure_bind, concluded]

end

/-- Without guards the first clause fires whose pattern and polarity fit the content: the clauses
without their transforms are then pure, and the answer of a scan of pure clauses is settled. -/
theorem firing_gives_of_unguarded {session : Session m ι α}
    (unguarded : ∀ heading ∈ session.headings, heading.guarded = false) :
    Gives session.firing (session.headings.findIdx? fun heading =>
      heading.fires (Inspectable.content session.input)) := by
  have silent : session.clauses.toList.map Clause.mute =
      (session.headings.map Heading.clause).map (Clause.lift (m := m)) := by
    rw [headings, List.map_map, List.map_map]
    apply List.map_congr_left
    intro clause member
    exact Clause.mute_of_unguarded (unguarded _ (List.mem_map_of_mem member))
  have found := (select_gives (m := m) session.input 0
    (session.headings.map Heading.clause)).map (Option.map Prod.fst)
  have applies : (fun entry : Clause Id ι Unit × Nat => decide (entry.1.Applies session.input)) ∘
      Prod.map Heading.clause id =
        fun entry => entry.1.fires (Inspectable.content session.input) := by
    funext entry
    rw [Bool.eq_iff_iff, Function.comp_apply, decide_eq_true_iff]
    exact Heading.clause_applies_iff
  rw [firing_eq_select_mute, silent, List.findIdx?_eq_fst_find?_zipIdx]
  rw [List.zipIdx_map, List.find?_map, applies, Option.map_map, Option.map_map] at found
  exact found

end Session

end Conform
