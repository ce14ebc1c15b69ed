import Conform.Proofs.Firing

/-!
Complementary clauses: two clauses next to each other, one for the values that a pattern accepts and
one for all others, under one guard. They can be swapped. One of them fires when they are reached
and the guard holds, and when it does not hold they are as good as absent.
-/

namespace Conform

variable {m : Type → Type} {ι α β : Type}

section

variable [Monad m] [Observed m]

/-- Computations that do the same, apart from what they let an observer know. -/
inductive ActsLike : {α : Type} → m α → m α → Prop where
  | refl {α : Type} (computation : m α) : ActsLike computation computation
  | symm {α : Type} {first second : m α} (same : ActsLike first second) : ActsLike second first
  | trans {α : Type} {first second third : m α} (left : ActsLike first second)
      (right : ActsLike second third) : ActsLike first third
  | told (event : Event) : ActsLike (emit event) (pure ())
  | bind {α β : Type} {first second : m α} {next other : α → m β} (begin : ActsLike first second)
      (rest : ∀ result, ActsLike (next result) (other result)) :
      ActsLike (first >>= next) (second >>= other)

namespace ActsLike

variable {first second : m α}

variable [LawfulMonad m]

/-- What an observer is told first can be left out. -/
theorem of_told (event : Event) (rest : ActsLike first second) :
    ActsLike (emit event >>= fun _ => first) second := by
  have silent := (ActsLike.told (m := m) event).bind fun _ => rest
  rwa [pure_bind] at silent

/-- Where nobody listens, computations that act alike are the same. -/
theorem eq_of_unobserved (same : ActsLike first second)
    (unobserved : ∀ level, (Observed.enabled level : m Bool) = pure false) : first = second := by
  induction same with
  | refl => rfl
  | symm _ ih => exact ih.symm
  | trans _ _ left right => exact left.trans right
  | told event => exact emit_of_unobserved unobserved event
  | bind _ _ begin rest => rw [begin, funext rest]

end ActsLike

end

/-- What a clause does, if it fires, and else what comes after it. -/
def Clause.attempt [Monad m] [Inspectable ι] (input : ι) (clause : Clause m ι α)
    (rest : m (Option α)) : m (Option α) := do
  if (← clause.passes input) && clause.fires input then
    return some (← clause.transform input)
  else rest

namespace Session

/-- What is done when no clause fires. -/
def fallBack [Monad m] (fallback : Option (m α)) : m (Option α) :=
  match fallback with
  | some produce => return some (← produce)
  | none => return none

variable [Monad m] [LawfulMonad m] [Observed m] [Inspectable ι]

theorem select_actsLike {input : ι} {start : Nat} {clauses : List (Clause m ι α)}
    {next : Option (Nat × Clause m ι α) → m (Option α)} {rest : m (Option α)}
    (silent : ActsLike (next none) rest)
    (each : ∀ index clause, ActsLike (next (some (index, clause)))
      (do return some (← clause.transform input))) :
    ActsLike (select input start clauses >>= next) (clauses.foldr (Clause.attempt input) rest) := by
  induction clauses generalizing start with
  | nil =>
    rw [select, pure_bind]
    exact silent
  | cons clause clauses ih =>
    rw [select_cons, bind_assoc, List.foldr_cons, Clause.attempt]
    refine .bind (.refl _) fun passed => ?_
    split
    · rw [pure_bind]
      exact each start clause
    · rw [bind_assoc]
      exact .of_told _ ih

/-- An evaluation tries one clause after the other, and at last the fallback. -/
theorem evaluate_actsLike (session : Session m ι α) :
    ActsLike session.evaluate
      (session.clauses.toList.foldr (Clause.attempt session.input)
        (fallBack session.fallback)) := by
  rw [evaluate]
  refine .of_told _ (select_actsLike ?silent fun index clause => ?fired)
  case silent =>
    cases session.fallback with
    | none => exact .of_told _ (.refl _)
    | some produce => exact .of_told _ (.refl _)
  case fired => exact .of_told _ (.refl _)

theorem evaluate_build_actsLike (input : ι) (declarations : List (Declaration m ι α)) :
    ActsLike (build input declarations).evaluate
      ((declarations.filterMap Declaration.clause?).foldr (Clause.attempt input)
        (fallBack (declarations.filterMap Declaration.fallback?).getLast?)) := by
  have acts := evaluate_actsLike (build input declarations)
  rwa [clauses_build, fallback_build, input_build] at acts

end Session

/-- The clause with a polarity and a pure guard, if it is to have one. -/
def Clause.of [Monad m] (polarity : Polarity) (pattern : Pattern) (guard : Option (ι → Bool))
    (transform : ι → m α) : Clause m ι α :=
  ⟨pattern, polarity, guard.map fun test input => pure (test input), transform⟩

namespace Declaration

variable [Monad m]

/-- The declaration of the clause with a polarity and a pure guard, if it is to have one. -/
def of (polarity : Polarity) (pattern : Pattern) (guard : Option (ι → Bool))
    (transform : ι → m α) : Declaration m ι α :=
  match polarity, guard with
  | .affirmative, none => .accept pattern transform
  | .affirmative, some test => .acceptIf pattern (fun input => pure (test input)) transform
  | .negated, none => .refuse pattern transform
  | .negated, some test => .refuseIf pattern (fun input => pure (test input)) transform

variable (polarity : Polarity) (pattern : Pattern) (guard : Option (ι → Bool))
  (transform : ι → m α)

theorem clause?_of : (of polarity pattern guard transform).clause? =
    some (.of polarity pattern guard transform) := by
  cases polarity <;> cases guard <;> rfl

theorem fallback?_of : (of polarity pattern guard transform).fallback? = none := by
  cases polarity <;> cases guard <;> rfl

end Declaration

namespace Clause

variable [Monad m] (polarity : Polarity) (pattern : Pattern) (guard : Option (ι → Bool))
  (transform : ι → m α) (input : ι)

theorem passes_of : (of polarity pattern guard transform).passes input =
    pure (guard.all fun test => test input) := by
  cases guard <;> rfl

theorem fires_of [Inspectable ι] : (of polarity pattern guard transform).fires input =
    polarity.fires (pattern.accepts (Inspectable.content input)) := rfl

theorem attempt_of [LawfulMonad m] [Inspectable ι] (rest : m (Option α)) :
    (of polarity pattern guard transform).attempt input rest =
      if (guard.all fun test => test input) &&
          polarity.fires (pattern.accepts (Inspectable.content input)) then
        (do return some (← transform input))
      else rest := by
  rw [attempt, passes_of, pure_bind, fires_of]
  rfl

end Clause

namespace Session

variable [Monad m] [LawfulMonad m] [Observed m] [Inspectable ι] {polarity : Polarity}
  {pattern : Pattern} {guard : Option (ι → Bool)} {transform : ι → m α} {input : ι} {start : Nat}
  {clauses : List (Clause m ι α)}

theorem select_of_fires (holds : (guard.all fun test => test input) = true)
    (fires : polarity.fires (pattern.accepts (Inspectable.content input)) = true) :
    Gives (select input start (.of polarity pattern guard transform :: clauses))
      (some (start, .of polarity pattern guard transform)) := by
  rw [select_cons, Clause.passes_of, holds, pure_bind, Clause.fires_of, fires]
  exact .pure _

theorem select_of_skips (holds : (guard.all fun test => test input) = true)
    (skips : polarity.fires (pattern.accepts (Inspectable.content input)) = false)
    {found : Option (Nat × Clause m ι α)} (later : Gives (select input (start + 1) clauses) found) :
    Gives (select input start (.of polarity pattern guard transform :: clauses)) found := by
  rw [select_cons, Clause.passes_of, holds, pure_bind, Clause.fires_of, skips]
  exact (Gives.effect _).bind later

end Session

/-- A clause for the values that a pattern accepts and one for all others, in either order. -/
inductive Complementary [Monad m] (pattern : Pattern) (guard : Option (ι → Bool))
    (accepted refused : ι → m α) : List (Declaration m ι α) → Prop where
  | acceptedFirst : Complementary pattern guard accepted refused
      [.of .affirmative pattern guard accepted, .of .negated pattern guard refused]
  | refusedFirst : Complementary pattern guard accepted refused
      [.of .negated pattern guard refused, .of .affirmative pattern guard accepted]

namespace Complementary

variable [Monad m] [LawfulMonad m] [Inspectable ι] {pattern : Pattern}
  {guard : Option (ι → Bool)} {accepted refused : ι → m α} {pair : List (Declaration m ι α)}

omit [LawfulMonad m] [Inspectable ι] in
theorem fallback? (own : Complementary pattern guard accepted refused pair) :
    pair.filterMap Declaration.fallback? = [] := by
  cases own <;> simp [Declaration.fallback?_of]

/-- When the guard holds, one of the two clauses does its part, and else neither. In either order
the second decides the opposite of the first. -/
theorem attempts (own : Complementary pattern guard accepted refused pair) (input : ι)
    (rest : m (Option α)) :
    (pair.filterMap Declaration.clause?).foldr (Clause.attempt input) rest =
      if guard.all fun test => test input then
        (do return some (← (if pattern.accepts (Inspectable.content input) then accepted
          else refused) input))
      else rest := by
  cases own <;>
    simp only [List.filterMap_cons, List.filterMap_nil, Declaration.clause?_of, List.foldr_cons,
      List.foldr_nil, Clause.attempt_of] <;>
    cases guard.all fun test => test input <;>
    cases pattern.accepts (Inspectable.content input) <;> rfl

/-- When the guard holds and the two clauses are reached, the one fires that fits. -/
theorem selected [Observed m] (own : Complementary pattern guard accepted refused pair) (input : ι)
    (holds : (guard.all fun test => test input) = true) (start : Nat)
    (clauses : List (Clause m ι α)) :
    ∃ position clause,
      pair[position]? = some (if pattern.accepts (Inspectable.content input) then
        .of .affirmative pattern guard accepted else .of .negated pattern guard refused) ∧
      (pair.filterMap Declaration.clause?)[position]? = some clause ∧
      clause.transform =
        (if pattern.accepts (Inspectable.content input) then accepted else refused) ∧
      Gives (Session.select input start (pair.filterMap Declaration.clause? ++ clauses))
        (some (start + position, clause)) := by
  cases own with
  | acceptedFirst =>
    simp only [List.filterMap_cons, List.filterMap_nil, Declaration.clause?_of]
    cases decision : pattern.accepts (Inspectable.content input) with
    | true =>
      exact ⟨0, _, rfl, rfl, rfl, Session.select_of_fires holds (by rw [decision]; rfl)⟩
    | false =>
      refine ⟨1, _, rfl, rfl, rfl, Session.select_of_skips holds (by rw [decision]; rfl) ?_⟩
      exact Session.select_of_fires holds (by rw [decision]; rfl)
  | refusedFirst =>
    simp only [List.filterMap_cons, List.filterMap_nil, Declaration.clause?_of]
    cases decision : pattern.accepts (Inspectable.content input) with
    | true =>
      refine ⟨1, _, rfl, rfl, rfl, Session.select_of_skips holds (by rw [decision]; rfl) ?_⟩
      exact Session.select_of_fires holds (by rw [decision]; rfl)
    | false =>
      exact ⟨0, _, rfl, rfl, rfl, Session.select_of_fires holds (by rw [decision]; rfl)⟩

/-- What is left of a chain with two complementary clauses in it does not depend on their order. -/
theorem evaluate_actsLike [Observed m] (own : Complementary pattern guard accepted refused pair)
    (input : ι) (before after : List (Declaration m ι α)) :
    ActsLike (Session.build input (before ++ pair ++ after)).evaluate
      ((before.filterMap Declaration.clause?).foldr (Clause.attempt input)
        (if guard.all fun test => test input then
          (do return some (← (if pattern.accepts (Inspectable.content input) then accepted
            else refused) input))
        else (after.filterMap Declaration.clause?).foldr (Clause.attempt input)
          (Session.fallBack ((before ++ after).filterMap Declaration.fallback?).getLast?))) := by
  have acts := Session.evaluate_build_actsLike input (before ++ pair ++ after)
  simpa only [List.filterMap_append, List.foldr_append, own.attempts, own.fallback?,
    List.append_nil] using acts

end Complementary

namespace Session

variable [Monad m] [LawfulMonad m] [Observed m] [Inspectable ι] {pattern : Pattern}
  {guard : Option (ι → Bool)} {accepted refused : ι → m α} {pair other : List (Declaration m ι α)}

/-- Complementary clauses can be swapped wherever they stand. Without their guard they are not
there; with it nothing behind them is, and if they are reached one of them fires. No guard is one
that always holds. -/
theorem complementary_clauses (own : Complementary pattern guard accepted refused pair)
    (swapped : Complementary pattern guard accepted refused other) (input : ι)
    (before after : List (Declaration m ι α)) :
    ActsLike (build input (before ++ pair ++ after)).evaluate
      (build input (before ++ other ++ after)).evaluate ∧
    ((guard.all fun test => test input) = false →
      ActsLike (build input (before ++ pair ++ after)).evaluate
        (build input (before ++ after)).evaluate) ∧
    ((guard.all fun test => test input) = true →
      ActsLike (build input (before ++ pair ++ after)).evaluate
        (build input (before ++ [.otherwise ((if pattern.accepts (Inspectable.content input) then
          accepted else refused) input)])).evaluate) ∧
    ((guard.all fun test => test input) = true → Gives (build input before).firing none →
      ∃ position,
        pair[position]? = some (if pattern.accepts (Inspectable.content input) then
          .of .affirmative pattern guard accepted else .of .negated pattern guard refused) ∧
        Gives (build input (before ++ pair ++ after)).firing
          (some ((build input before).size + position)) ∧
        ∃ effects : m Unit, (build input (before ++ pair ++ after)).evaluate =
          effects >>= fun _ => (do return some (← (if pattern.accepts (Inspectable.content input)
            then accepted else refused) input))) ∧
    (∀ always, guard = none → Complementary pattern (some fun _ => true) accepted refused always →
      ActsLike (build input (before ++ pair ++ after)).evaluate
        (build input (before ++ always ++ after)).evaluate) ∧
    ((∀ level, (Observed.enabled level : m Bool) = pure false) →
      ∀ first second : m (Option α), ActsLike first second → first = second) := by
  refine ⟨?_, ?_, ?_, ?_, ?_, ?_⟩
  · exact (own.evaluate_actsLike input before after).trans
      (swapped.evaluate_actsLike input before after).symm
  · intro fails
    have acts := own.evaluate_actsLike input before after
    have without := evaluate_build_actsLike input (before ++ after)
    rw [fails, if_neg Bool.false_ne_true, ← List.foldr_append, ← List.filterMap_append] at acts
    exact acts.trans without.symm
  · intro holds
    have acts := own.evaluate_actsLike input before after
    have last := evaluate_build_actsLike input (before ++ [.otherwise
      ((if pattern.accepts (Inspectable.content input) then accepted else refused) input)])
    rw [holds, if_pos rfl] at acts
    rw [List.filterMap_append, List.filterMap_append] at last
    simp only [List.filterMap_cons, List.filterMap_nil, Declaration.clause?,
      Declaration.fallback?, List.append_nil, List.getLast?_concat] at last
    exact acts.trans last.symm
  · intro holds silent
    obtain ⟨position, clause, declared, there, transform, selected⟩ :=
      own.selected input holds (build input before).size (after.filterMap Declaration.clause?)
    have fires : Gives (build input (before ++ pair ++ after)).firing
        (some ((build input before).size + position)) := by
      rw [List.append_assoc, firing_build_append, List.filterMap_append]
      exact silent.bind (selected.bind (.pure _))
    have fired : (build input (before ++ pair ++ after)).clauses.toList[
        (build input before).size + position]? = some clause := by
      have inside := (List.getElem?_eq_some_iff.mp there).1
      rw [List.append_assoc, getElem?_build_append, List.filterMap_append,
        List.getElem?_append_left inside, there]
    have evaluated := evaluate_of_fires fired fires
    rw [transform, input_build] at evaluated
    exact ⟨position, declared, fires, evaluated⟩
  · rintro always rfl alike
    exact (own.evaluate_actsLike input before after).trans
      (alike.evaluate_actsLike input before after).symm
  · intro unobserved first second same
    exact same.eq_of_unobserved unobserved

/-- The two clauses behind a fallback and before a clause that would fire as well, for a value that
passes the guard and for one that does not, and without a guard. -/
theorem complementary_clauses_between :
    ∃ pair other before after : List (Declaration Id Value Nat),
      pair = [.acceptIf .anyNumber (fun value => value.isPrimitive) fun _ => 2,
        .refuseIf .anyNumber (fun value => value.isPrimitive) fun _ => 3] ∧
      other = pair.reverse ∧ before = [.otherwise 1] ∧ after = [.accept .anyString fun _ => 4] ∧
      (build (.string "x") (before ++ pair ++ after)).evaluate = some 3 ∧
      (build (.string "x") (before ++ other ++ after)).evaluate = some 3 ∧
      (build (.list []) (before ++ pair ++ after)).evaluate =
        (build (.list []) (before ++ after)).evaluate ∧
      (build (.list []) (before ++ [.accept .anyNumber fun _ => 2, .refuse .anyNumber fun _ => 3] ++
          after)).evaluate =
        (build (.list []) (before ++ [.refuseIf .anyNumber (fun _ => true) fun _ => 3,
          .acceptIf .anyNumber (fun _ => true) fun _ => 2] ++ after)).evaluate := by
  have guarded := fun input => @complementary_clauses Id Value Nat _ _ _ _ .anyNumber
    (some fun value => value.isPrimitive) (fun _ => 2) (fun _ => 3) _ _ .acceptedFirst .refusedFirst
    input [.otherwise 1] [.accept .anyString fun _ => 4]
  have unguarded := @complementary_clauses Id Value Nat _ _ _ _ .anyNumber none (fun _ => 2)
    (fun _ => 3) _ _ .acceptedFirst .refusedFirst (.list []) [.otherwise 1]
    [.accept .anyString fun _ => 4]
  obtain ⟨swap, _, _, reached, _, same⟩ := guarded (.string "x")
  obtain ⟨_, dropped, _⟩ := guarded (.list [])
  obtain ⟨_, _, _, _, always, _⟩ := unguarded
  have unobserved : ∀ level, (Observed.enabled level : Id Bool) = pure false := fun _ => rfl
  obtain ⟨_, _, _, _, evaluated⟩ := reached rfl (Gives.of_id.mpr rfl)
  refine ⟨_, _, _, _, rfl, rfl, rfl, rfl, evaluated, ?_, ?_, ?_⟩
  · exact (same unobserved _ _ swap).symm.trans evaluated
  · exact same unobserved _ _ (dropped rfl)
  · exact same unobserved _ _ (always _ rfl .refusedFirst)

end Session

end Conform
