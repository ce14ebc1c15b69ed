import Conform.Proofs.Failures
import Conform.Proofs.Selection
import Conform.Script.Effect
import Mathlib.Data.List.Forall2

/-!
Traces: what an observer is told of an evaluation whose guards are pure. Every clause that is looked
at in vain leaves one remark, in the order of declaration, and one last event says how it ended.
What comes out does not depend on who listens.
-/

namespace Conform

variable {m : Type → Type} {ι α β : Type}

namespace Clause

/-- A clause with a pure guard among computations. What its transform gives says what is to be
done. -/
def liftWith [Monad m] (act : β → m α) (clause : Clause Id ι β) : Clause m ι α where
  pattern := clause.pattern
  polarity := clause.polarity
  guard := clause.guard.map fun guard input => pure (guard input)
  transform input := act (clause.transform input)

section

variable [Monad m] (act : β → m α) (clause : Clause Id ι β)

theorem passes_liftWith (input : ι) :
    (clause.liftWith act).passes input = pure (clause.passes input).run := by
  obtain ⟨pattern, polarity, guard, transform⟩ := clause
  cases guard <;> rfl

theorem fires_liftWith [Inspectable ι] (input : ι) :
    (clause.liftWith act).fires input = clause.fires input := rfl

theorem heading_liftWith : (clause.liftWith act).heading = clause.heading := by
  rw [heading, liftWith, Option.isSome_map, heading]

end

theorem run_passes_iff {clause : Clause Id ι α} {input : ι} :
    (clause.passes input).run = true ↔
      ∀ guard, clause.guard = some guard → guard input = true := by
  obtain ⟨pattern, polarity, guard, transform⟩ := clause
  cases guard with
  | none => simp [passes]
  | some guard =>
    constructor
    · rintro passed _ ⟨⟩
      exact passed
    · intro holds
      exact holds guard rfl

/-- What an observer is told of a clause that does not fire. -/
def remark [Inspectable ι] (input : ι) (index : Nat) (clause : Clause Id ι α) : Event :=
  if (clause.passes input).run then clause.skipped input index else .guardRejected index

end Clause

namespace Declaration

/-- A declaration with a pure guard among computations. -/
def liftWith [Monad m] (act : β → m α) : Declaration Id ι β → Declaration m ι α
  | .accept pattern transform => .accept pattern fun input => act (transform input)
  | .acceptIf pattern guard transform =>
    .acceptIf pattern (fun input => pure (guard input)) fun input => act (transform input)
  | .refuse pattern transform => .refuse pattern fun input => act (transform input)
  | .refuseIf pattern guard transform =>
    .refuseIf pattern (fun input => pure (guard input)) fun input => act (transform input)
  | .otherwise produce => .otherwise (act produce)

variable [Monad m]

theorem clause?_liftWith (act : β → m α) (declaration : Declaration Id ι β) :
    (declaration.liftWith act).clause? = declaration.clause?.map (Clause.liftWith act) := by
  cases declaration <;> rfl

theorem fallback?_liftWith (act : β → m α) (declaration : Declaration Id ι β) :
    (declaration.liftWith act).fallback? = declaration.fallback?.map act := by
  cases declaration <;> rfl

theorem lift_eq_liftWith (declaration : Declaration Id ι α) :
    (declaration.lift : Declaration m ι α) = declaration.liftWith pure := by
  cases declaration <;> rfl

end Declaration

section

variable [Inspectable ι] {input : ι} {start index : Nat} {clause : Clause Id ι α}
  {clauses : List (Clause Id ι α)} {fallback : Option α}

/-- The remarks on the clauses before the first that applies. -/
def remarks (input : ι) (start : Nat) (clauses : List (Clause Id ι α)) : List Event :=
  ((clauses.zipIdx start).takeWhile fun entry => !entry.1.Applies input).map fun entry =>
    entry.1.remark input entry.2

/-- The first clause that applies, with its index. -/
def firstApplying? (input : ι) (start : Nat) (clauses : List (Clause Id ι α)) :
    Option (Clause Id ι α × Nat) :=
  (clauses.zipIdx start).find? fun entry => entry.1.Applies input

/-- How an evaluation begins. -/
def span (input : ι) (clauses : List (Clause Id ι α)) : Event :=
  .evaluation clauses.length (Inspectable.content input).kind

/-- How an evaluation ends: with a clause, with the fallback or with nothing. -/
def ending (input : ι) (clauses : List (Clause Id ι α)) (fallback : Option α) : Event :=
  match firstApplying? input 0 clauses with
  | some (clause, index) => .fired index clause.heading
  | none => if fallback.isSome then .fallback else .exhausted

theorem remarks_cons_of_applies (applies : clause.Applies input) :
    remarks input start (clause :: clauses) = [] := by
  simp [remarks, List.zipIdx_cons, applies]

theorem remarks_cons_of_not_applies (passedOver : ¬ clause.Applies input) :
    remarks input start (clause :: clauses) =
      clause.remark input start :: remarks input (start + 1) clauses := by
  simp [remarks, List.zipIdx_cons, passedOver]

theorem firstApplying?_cons_of_applies (applies : clause.Applies input) :
    firstApplying? input start (clause :: clauses) = some (clause, start) := by
  simp [firstApplying?, List.zipIdx_cons, applies]

theorem firstApplying?_cons_of_not_applies (passedOver : ¬ clause.Applies input) :
    firstApplying? input start (clause :: clauses) = firstApplying? input (start + 1) clauses := by
  simp [firstApplying?, List.zipIdx_cons, passedOver]

theorem map_fst_firstApplying? (input : ι) (start : Nat) (clauses : List (Clause Id ι α)) :
    (firstApplying? input start clauses).map Prod.fst =
      clauses.find? fun clause => clause.Applies input := by
  rw [← List.zipIdx_map_fst start clauses, List.find?_map, List.zipIdx_map_fst]
  rfl

theorem level_of_mem_remarks {event : Event} (member : event ∈ remarks input start clauses) :
    event.level = .trace := by
  obtain ⟨entry, _, rfl⟩ := List.mem_map.mp member
  rw [Clause.remark]
  split <;> rfl

theorem level_ending : (ending input clauses fallback).level = .debug := by
  unfold ending
  split
  · rfl
  · split <;> rfl

/-- What is remarked on a clause that is looked at in vain, and in which words. Its guard fails; or
it asks for what the pattern accepts, and there is a mismatch; or it asks for the opposite, and
there is none. -/
inductive Remark (input : ι) (index : Nat) (clause : Clause Id ι α) :
    Event → List (String × String) → Prop where
  | rejected {guard : ι → Id Bool} (guarded : clause.guard = some guard)
      (fails : guard input = false) :
      Remark input index clause (.guardRejected index)
        [("message", "guard rejected clause"), ("index", toString index)]
  | mismatched {mismatch : Mismatch}
      (passed : ∀ guard, clause.guard = some guard → guard input = true)
      (affirmative : clause.polarity = .affirmative)
      (explained : clause.pattern.explain (Inspectable.content input) = some mismatch) :
      Remark input index clause (.skipped index .affirmative false (some mismatch))
        [("message", "clause skipped"), ("index", toString index), ("polarity", "with"),
          ("mismatch", mismatch.toText)]
  | matched (passed : ∀ guard, clause.guard = some guard → guard input = true)
      (negated : clause.polarity = .negated)
      (accepted : clause.pattern.accepts (Inspectable.content input) = true) :
      Remark input index clause (.skipped index .negated true none)
        [("message", "clause skipped"), ("index", toString index), ("polarity", "with not"),
          ("matched", "true")]

/-- The events are the remarks on the clauses, one by one. -/
def Remarked (input : ι) (entries : List (Clause Id ι α × Nat)) (events : List Event) : Prop :=
  List.Forall₂ (fun entry event => Remark input entry.2 entry.1 event event.fields) entries events

theorem remark_of_not_applies (passedOver : ¬ clause.Applies input) :
    Remark input index clause (clause.remark input index) (clause.remark input index).fields := by
  have unexplained : clause.pattern.explain (Inspectable.content input) = none ↔
      clause.pattern.accepts (Inspectable.content input) = true := by
    rw [Pattern.explain_eq_head?, List.head?_eq_none_iff, Pattern.failures_eq_nil_iff]
  rw [Clause.remark, Clause.skipped]
  split
  · rename_i passed
    have guards := Clause.run_passes_iff.mp passed
    cases polarity : clause.polarity with
    | affirmative =>
      cases explained : clause.pattern.explain (Inspectable.content input) with
      | some mismatch =>
        have refused : clause.pattern.accepts (Inspectable.content input) = false := by
          rw [← Bool.not_eq_true, ← unexplained, explained]
          exact Option.some_ne_none mismatch
        rw [refused]
        exact .mismatched guards polarity explained
      | none =>
        have accepted := unexplained.mp explained
        exact absurd ⟨guards, iff_of_true accepted polarity⟩ passedOver
    | negated =>
      by_cases accepted : clause.pattern.accepts (Inspectable.content input) = true
      · rw [unexplained.mpr accepted, accepted]
        exact .matched guards polarity accepted
      · have other : clause.polarity ≠ .affirmative := by simp [polarity]
        exact absurd ⟨guards, iff_of_false accepted other⟩ passedOver
  · rename_i failed
    rw [Clause.run_passes_iff] at failed
    push Not at failed
    obtain ⟨guard, guarded, fails⟩ := failed
    exact .rejected guarded ((Bool.not_eq_true _).mp fails)

/-- Before the first clause that applies, every clause is remarked on. -/
theorem remarked_of_firstApplying? (found : firstApplying? input start clauses =
    some (clause, index)) :
    ∃ position, index = start + position ∧ clauses[position]? = some clause ∧
      clause.Applies input ∧
        Remarked input ((clauses.take position).zipIdx start) (remarks input start clauses) := by
  induction clauses generalizing start with
  | nil => cases found
  | cons other clauses ih =>
    by_cases applies : other.Applies input
    · rw [firstApplying?_cons_of_applies applies] at found
      cases found
      rw [remarks_cons_of_applies applies]
      exact ⟨0, rfl, rfl, applies, .nil⟩
    · rw [firstApplying?_cons_of_not_applies applies] at found
      obtain ⟨position, rfl, declared, own, remarked⟩ := ih found
      rw [remarks_cons_of_not_applies applies]
      exact ⟨position + 1, Nat.add_right_comm _ _ _, declared, own,
        .cons (remark_of_not_applies applies) remarked⟩

theorem remarked_of_silent (silent : firstApplying? input start clauses = none) :
    Remarked input (clauses.zipIdx start) (remarks input start clauses) := by
  induction clauses generalizing start with
  | nil => exact .nil
  | cons other clauses ih =>
    by_cases applies : other.Applies input
    · rw [firstApplying?_cons_of_applies applies] at silent
      cases silent
    · rw [firstApplying?_cons_of_not_applies applies] at silent
      rw [remarks_cons_of_not_applies applies]
      exact .cons (remark_of_not_applies applies) (ih silent)

/-- What is told of an evaluation with pure closures: a remark on every clause before the one that
fires, or on every clause, and how it ends, which goes with the result. -/
inductive Told (input : ι) (clauses : List (Clause Id ι α)) (fallback : Option α) :
    List Event → Event → Option α → Prop where
  | fired {position : Nat} {clause : Clause Id ι α} {remarks : List Event}
      (declared : clauses[position]? = some clause) (applies : clause.Applies input)
      (remarked : Remarked input (clauses.take position).zipIdx remarks) :
      Told input clauses fallback remarks (.fired position clause.heading)
        (some (clause.transform input))
  | fallback {result : α} {remarks : List Event} (set : fallback = some result)
      (remarked : Remarked input clauses.zipIdx remarks) :
      Told input clauses fallback remarks .fallback (some result)
  | exhausted {remarks : List Event} (unset : fallback = none)
      (remarked : Remarked input clauses.zipIdx remarks) :
      Told input clauses fallback remarks .exhausted none

theorem told (input : ι) (clauses : List (Clause Id ι α)) (fallback : Option α) :
    Told input clauses fallback (remarks input 0 clauses) (ending input clauses fallback)
      (resolution input clauses fallback) := by
  unfold ending resolution
  rw [← map_fst_firstApplying? input 0 clauses]
  cases found : firstApplying? input 0 clauses with
  | some entry =>
    obtain ⟨clause, index⟩ := entry
    obtain ⟨position, rfl, declared, applies, remarked⟩ := remarked_of_firstApplying? found
    rw [Nat.zero_add]
    exact .fired declared applies remarked
  | none =>
    have remarked := remarked_of_silent found
    cases fallback with
    | some result => exact .fallback rfl remarked
    | none => exact .exhausted rfl remarked

end

namespace Session

section

variable [Monad m] [LawfulMonad m] [Observed m] [Inspectable ι] {act : β → m α}

theorem select_liftWith (act : β → m α) (input : ι) (start : Nat) (clauses : List (Clause Id ι β)) :
    select input start (clauses.map (Clause.liftWith act)) = do
      (remarks input start clauses).forM emit
      return (firstApplying? input start clauses).map fun entry =>
        (entry.2, entry.1.liftWith act) := by
  induction clauses generalizing start with
  | nil => exact (pure_bind () fun _ => pure none).symm
  | cons clause clauses ih =>
    rw [List.map_cons, select, Clause.passes_liftWith, pure_bind, Clause.fires_liftWith]
    by_cases applies : clause.Applies input
    · obtain ⟨passed, fires⟩ := Clause.applies_iff.mp applies
      rw [remarks_cons_of_applies applies, firstApplying?_cons_of_applies applies, if_pos passed,
        if_pos fires]
      exact (pure_bind () fun _ => pure (some (start, clause.liftWith act))).symm
    · have told (event : Event) : (do
          emit event
          select input (start + 1) (clauses.map (Clause.liftWith act)) :
            m (Option (Nat × Clause m ι α))) = (do
          (event :: remarks input (start + 1) clauses).forM emit
          return (firstApplying? input (start + 1) clauses).map fun entry =>
            (entry.2, entry.1.liftWith act)) := by
        rw [ih (start + 1)]
        exact (bind_assoc _ _ _).symm
      rw [remarks_cons_of_not_applies applies, firstApplying?_cons_of_not_applies applies,
        Clause.remark]
      split
      · rename_i passed
        rw [if_neg fun fires => applies (Clause.applies_iff.mpr ⟨passed, fires⟩)]
        exact told (clause.skipped input start)
      · exact told _

private theorem emit_then (event : Event) (computation : m α) :
    (do
      emit event
      return some (← computation)) = (do
      emit event
      some <$> computation) :=
  bind_congr fun _ => bind_pure_comp some computation

/-- An evaluation with pure guards tells everything first, and then does what the first clause that
applies or else the fallback says. -/
theorem evaluate_eq_told {session : Session m ι α} {clauses : List (Clause Id ι β)}
    {fallback : Option β} (declared : session.clauses.toList = clauses.map (Clause.liftWith act))
    (last : session.fallback = fallback.map act) :
    session.evaluate = (do
      (span session.input clauses :: (remarks session.input 0 clauses ++
        [ending session.input clauses fallback])).forM emit
      (resolution session.input clauses fallback).mapM act) := by
  have size : session.size = clauses.length := by
    rw [Session.size, GrowingList.size_toList, declared, List.length_map]
  unfold evaluate ending resolution
  rw [declared, last, size, select_liftWith, ← map_fst_firstApplying? session.input 0 clauses]
  simp only [List.forM_eq_forM, List.forM_cons, List.forM_append, List.forM_nil, bind_assoc,
    pure_bind]
  refine bind_congr fun _ => bind_congr fun _ => ?_
  cases firstApplying? session.input 0 clauses with
  | some entry =>
    obtain ⟨clause, index⟩ := entry
    simp only [Option.map_some, Clause.heading_liftWith]
    exact emit_then (.fired index clause.heading) (act (clause.transform session.input))
  | none =>
    cases fallback with
    | some produce => exact emit_then .fallback (act produce)
    | none => rfl

end

section

variable [Monad m] (act : β → m α)

theorem clauses_build_liftWith (input : ι) (declarations : List (Declaration Id ι β)) :
    (build input (declarations.map (Declaration.liftWith act))).clauses.toList =
      (declarations.filterMap Declaration.clause?).map (Clause.liftWith act) := by
  rw [clauses_build, List.filterMap_map, List.map_filterMap]
  exact congrArg (List.filterMap · declarations) (funext (Declaration.clause?_liftWith act))

theorem fallback_build_liftWith (input : ι) (declarations : List (Declaration Id ι β)) :
    (build input (declarations.map (Declaration.liftWith act))).fallback =
      (declarations.filterMap Declaration.fallback?).getLast?.map act := by
  rw [fallback_build, List.filterMap_map, ← List.getLast?_map, List.map_filterMap]
  exact congrArg (fun calls => (List.filterMap calls declarations).getLast?)
    (funext (Declaration.fallback?_liftWith act))

theorem evaluate_build_liftWith [LawfulMonad m] [Observed m] [Inspectable ι] (input : ι)
    (declarations : List (Declaration Id ι β)) :
    (build input (declarations.map (Declaration.liftWith act))).evaluate = (do
      (span input (declarations.filterMap Declaration.clause?) ::
        (remarks input 0 (declarations.filterMap Declaration.clause?) ++
          [ending input (declarations.filterMap Declaration.clause?)
            (declarations.filterMap Declaration.fallback?).getLast?])).forM emit
      (resolution input (declarations.filterMap Declaration.clause?)
        (declarations.filterMap Declaration.fallback?).getLast?).mapM act) := by
  have told := evaluate_eq_told (clauses_build_liftWith act input declarations)
    (fallback_build_liftWith act input declarations)
  rwa [input_build] at told

end

end Session

namespace Script

/-- Whether the observer of a world takes note of an event. -/
def World.listens (world : World) (event : Event) : Bool :=
  world.observer.any fun level => level.includes event.level

/-- The world when its observer has been told of events. -/
def World.hear (world : World) (events : List Event) : World :=
  { world with events := (events.filter world.listens).reverse ++ world.events }

theorem run_emit (event : Event) (world : World) :
    (emit event : Run Unit).run.run world = (.ok (), world.hear [event]) := by
  have asked : (emit event : Run Unit).run.run world =
      (if world.listens event then Observed.record event else pure () : Run Unit).run.run world :=
    rfl
  rw [asked, World.hear]
  cases heard : world.listens event with
  | true => rw [List.filter_cons_of_pos heard]; rfl
  | false => rw [List.filter_cons_of_neg (by simp [heard])]; rfl

theorem hear_cons (world : World) (event : Event) (events : List Event) :
    (world.hear [event]).hear events = world.hear (event :: events) := by
  have told : (events.filter world.listens).reverse ++ (([event].filter world.listens).reverse ++
      world.events) = ((event :: events).filter world.listens).reverse ++ world.events := by
    rw [← List.append_assoc, ← List.reverse_append, ← List.filter_append, List.singleton_append]
  exact congrArg (fun events => { world with events }) told

theorem run_forM_emit_bind (events : List Event) (next : Run α) (world : World) :
    (events.forM emit >>= fun _ => next).run.run world = next.run.run (world.hear events) := by
  induction events generalizing world with
  | nil => rfl
  | cons event events ih =>
    have first : (emit event >>= fun _ => events.forM emit >>= fun _ => next).run.run world =
        (events.forM emit >>= fun _ => next).run.run (world.hear [event]) := by
      rw [ExceptT.run_bind, StateT.run_bind, run_emit]
      rfl
    rw [List.forM_eq_forM, List.forM_cons, bind_assoc, ← List.forM_eq_forM, first, ih, hear_cons]

/-- What is recorded of an evaluation: everything at the finest level, its beginning and its end at
the next, and nothing at coarser levels or when nobody observes. -/
def recorded (observer : Option Level) (beginning : Event) (remarks : List Event)
    (ending : Event) : List Event :=
  match observer with
  | some .trace => beginning :: (remarks ++ [ending])
  | some .debug => [beginning, ending]
  | _ => []

theorem filter_listens_eq_recorded {world : World} {beginning ending : Event}
    {remarks : List Event} (first : beginning.level = .debug)
    (between : ∀ remark ∈ remarks, remark.level = .trace) (last : ending.level = .debug) :
    (beginning :: (remarks ++ [ending])).filter world.listens =
      recorded world.observer beginning remarks ending := by
  have same : remarks.filter world.listens =
      remarks.filter fun _ => world.observer.any fun level => level.includes .trace := by
    refine List.filter_congr fun remark member => ?_
    rw [World.listens, between remark member]
  rw [List.filter_cons, List.filter_append, same, List.filter_singleton, World.listens,
    World.listens, first, last]
  cases world.observer with
  | none => simp [recorded]
  | some level => cases level <;> simp [recorded, Level.includes, Level.rank]

end Script

open Script in
/-- The trace of an evaluation with pure closures is faithful: behind the span stand a remark on
every clause that is examined and does not fire, in the order of the clauses, and one event that
goes with the result. The result is the same for every observer, and so is what there is to
record. -/
theorem Session.evaluate_traced [Inspectable ι] (input : ι)
    (declarations : List (Declaration Id ι α)) :
    ∃ remarks ending result,
      Told input (declarations.filterMap Declaration.clause?)
        (declarations.filterMap Declaration.fallback?).getLast? remarks ending result ∧
      ∀ world : World,
        (build input (declarations.map Declaration.lift) : Session Run ι α).evaluate.run.run world =
          (.ok result, { world with
            events := (recorded world.observer
              (.evaluation (declarations.filterMap Declaration.clause?).length
                (Inspectable.content input).kind) remarks ending).reverse ++ world.events }) := by
  refine ⟨_, _, _, told input _ _, fun world => ?_⟩
  have evaluated := evaluate_build_liftWith (m := Run) pure input declarations
  rw [← funext Declaration.lift_eq_liftWith] at evaluated
  rw [evaluated, run_forM_emit_bind, World.hear, filter_listens_eq_recorded rfl
    (fun _ member => level_of_mem_remarks member) level_ending]
  cases resolution input (declarations.filterMap Declaration.clause?)
    (declarations.filterMap Declaration.fallback?).getLast? <;> rfl

end Conform
