import Conform.Proofs.Declaration

/-!
Selection with pure closures: the first clause that fires decides, and the fallback only when none
does. The result is the same whatever an observer makes of the evaluation.
-/

namespace Conform

/-- A computation whose result is settled, whatever it does besides. -/
def Gives {m : Type → Type} [Monad m] {α : Type} (computation : m α) (result : α) : Prop :=
  ∃ effects : m Unit, computation = effects >>= fun _ => pure result

namespace Gives

variable {m : Type → Type} [Monad m] {α β : Type}

theorem of_id {computation : Id α} {result : α} :
    Gives computation result ↔ computation = result :=
  ⟨fun ⟨_, same⟩ => same, fun same => ⟨(), same⟩⟩

variable [LawfulMonad m]

theorem pure (result : α) : Gives (pure result : m α) result :=
  ⟨Pure.pure (), (pure_bind () fun _ => Pure.pure result).symm⟩

theorem effect (effects : m Unit) : Gives effects () :=
  ⟨effects, bind_pure_unit.symm⟩

theorem bind {computation : m α} {next : α → m β} {middle : α} {result : β}
    (first : Gives computation middle) (rest : Gives (next middle) result) :
    Gives (computation >>= next) result := by
  obtain ⟨effects, rfl⟩ := first
  obtain ⟨others, same⟩ := rest
  refine ⟨effects >>= fun _ => others, ?_⟩
  rw [bind_assoc, bind_assoc]
  refine congrArg (effects >>= ·) (funext fun _ => ?_)
  rw [pure_bind, same]

end Gives

variable {m : Type → Type} {ι α : Type}

theorem emit_of_unobserved [Monad m] [LawfulMonad m] [Observed m]
    (unobserved : ∀ level, (Observed.enabled level : m Bool) = pure false) (event : Event) :
    emit event = (pure () : m Unit) := by
  rw [emit, unobserved, pure_bind]
  rfl

theorem Polarity.fires_iff {polarity : Polarity} {accepted : Bool} :
    polarity.fires accepted = true ↔ (accepted = true ↔ polarity = .affirmative) := by
  cases polarity <;> simp [fires]

namespace Clause

/-- When a clause with pure closures applies: its guard, if it has one, holds of the input, and the
pattern accepts the input or does not as the polarity asks. -/
def Applies [Inspectable ι] (clause : Clause Id ι α) (input : ι) : Prop :=
  (∀ guard, clause.guard = some guard → guard input = true) ∧
    (clause.pattern.accepts (Inspectable.content input) = true ↔ clause.polarity = .affirmative)

theorem applies_iff [Inspectable ι] {clause : Clause Id ι α} {input : ι} :
    clause.Applies input ↔ (clause.passes input).run = true ∧ clause.fires input = true := by
  obtain ⟨pattern, polarity, guard, transform⟩ := clause
  refine and_congr ?_ ?_
  · cases guard with
    | none => simp [passes]
    | some guard =>
      constructor
      · intro holds
        exact holds guard rfl
      · rintro passed _ ⟨⟩
        exact passed
  · exact Polarity.fires_iff.symm

instance [Inspectable ι] (clause : Clause Id ι α) (input : ι) :
    Decidable (clause.Applies input) :=
  decidable_of_iff _ applies_iff.symm

/-- A clause with pure closures, among computations with effects. -/
def lift [Monad m] (clause : Clause Id ι α) : Clause m ι α where
  pattern := clause.pattern
  polarity := clause.polarity
  guard := clause.guard.map fun guard input => pure (guard input)
  transform input := pure (clause.transform input)

theorem passes_lift [Monad m] (clause : Clause Id ι α) (input : ι) :
    (clause.lift : Clause m ι α).passes input = pure (clause.passes input).run := by
  obtain ⟨pattern, polarity, guard, transform⟩ := clause
  cases guard <;> rfl

theorem fires_lift [Monad m] [Inspectable ι] (clause : Clause Id ι α) (input : ι) :
    (clause.lift : Clause m ι α).fires input = clause.fires input := rfl

end Clause

/-- A declaration with pure closures, among computations with effects. -/
def Declaration.lift [Monad m] : Declaration Id ι α → Declaration m ι α
  | .accept pattern transform => .accept pattern fun input => pure (transform input)
  | .acceptIf pattern guard transform =>
    .acceptIf pattern (fun input => pure (guard input)) fun input => pure (transform input)
  | .refuse pattern transform => .refuse pattern fun input => pure (transform input)
  | .refuseIf pattern guard transform =>
    .refuseIf pattern (fun input => pure (guard input)) fun input => pure (transform input)
  | .otherwise produce => .otherwise (pure produce)

theorem Declaration.lift_id (declaration : Declaration Id ι α) :
    declaration.lift = declaration := by
  cases declaration <;> rfl

theorem Declaration.clause?_lift [Monad m] (declaration : Declaration Id ι α) :
    (declaration.lift : Declaration m ι α).clause? = declaration.clause?.map Clause.lift := by
  cases declaration <;> rfl

theorem Declaration.fallback?_lift [Monad m] (declaration : Declaration Id ι α) :
    (declaration.lift : Declaration m ι α).fallback? = declaration.fallback?.map pure := by
  cases declaration <;> rfl

section

variable [Inspectable ι]

/-- What clauses with pure closures and a fallback come to for an input: the transform of the first
clause that applies, and what the fallback gives, if there is one, when none applies. -/
inductive Resolves (input : ι) (clauses : List (Clause Id ι α)) (fallback : Option α) :
    Option α → Prop where
  | clause {position : Nat} {clause : Clause Id ι α} (declared : clauses[position]? = some clause)
      (applies : clause.Applies input)
      (first : ∀ earlier other, earlier < position → clauses[earlier]? = some other →
        ¬ other.Applies input) :
      Resolves input clauses fallback (some (clause.transform input))
  | fallback (silent : ∀ clause ∈ clauses, ¬ clause.Applies input) :
      Resolves input clauses fallback fallback

def resolution (input : ι) (clauses : List (Clause Id ι α)) (fallback : Option α) : Option α :=
  match clauses.find? fun clause => clause.Applies input with
  | some clause => some (clause.transform input)
  | none => fallback

variable {input : ι} {clauses : List (Clause Id ι α)} {fallback result : Option α}

theorem Resolves.eq_resolution (resolves : Resolves input clauses fallback result) :
    result = resolution input clauses fallback := by
  cases resolves with
  | @clause position clause declared applies first =>
    have found : clauses.find? (fun clause => clause.Applies input) = some clause := by
      obtain ⟨inRange, here⟩ := List.getElem?_eq_some_iff.mp declared
      refine List.find?_eq_some_iff_getElem.mpr
        ⟨by simpa using applies, position, inRange, here, ?_⟩
      intro earlier before
      simpa using first earlier _ before (List.getElem?_eq_getElem _)
    rw [resolution, found]
  | fallback silent =>
    have found : clauses.find? (fun clause => clause.Applies input) = none := by
      simpa using silent
    rw [resolution, found]

theorem resolves_resolution :
    Resolves input clauses fallback (resolution input clauses fallback) := by
  rw [resolution]
  cases found : clauses.find? fun clause => clause.Applies input with
  | none => exact .fallback (by simpa using found)
  | some clause =>
    obtain ⟨applies, position, inRange, rfl, first⟩ := List.find?_eq_some_iff_getElem.mp found
    refine .clause (List.getElem?_eq_getElem inRange) (by simpa using applies) ?_
    intro earlier other before there
    obtain ⟨_, rfl⟩ := List.getElem?_eq_some_iff.mp there
    simpa using first earlier before

end

namespace Session

variable [Monad m] [LawfulMonad m] [Observed m] [Inspectable ι]

theorem select_gives (input : ι) (start : Nat) (clauses : List (Clause Id ι α)) :
    Gives (select (m := m) input start (clauses.map Clause.lift))
      (((clauses.zipIdx start).find? fun entry => entry.1.Applies input).map fun entry =>
        (entry.2, entry.1.lift)) := by
  induction clauses generalizing start with
  | nil => exact .pure none
  | cons clause clauses ih =>
    rw [List.map_cons, select, Clause.passes_lift, pure_bind, Clause.fires_lift, List.zipIdx_cons]
    have later := ih (start + 1)
    by_cases applies : clause.Applies input
    · obtain ⟨passed, fires⟩ := Clause.applies_iff.mp applies
      rw [List.find?_cons_of_pos (by simpa using applies), if_pos passed, if_pos fires]
      exact .pure (some (start, clause.lift))
    · rw [List.find?_cons_of_neg (by simpa using applies)]
      split
      · rename_i passed
        rw [if_neg fun fires => applies (Clause.applies_iff.mpr ⟨passed, fires⟩)]
        exact (Gives.effect _).bind later
      · exact (Gives.effect _).bind later

theorem evaluate_gives {session : Session m ι α} {clauses : List (Clause Id ι α)}
    {fallback : Option α} (declared : session.clauses.toList = clauses.map Clause.lift)
    (last : session.fallback = fallback.map pure) :
    Gives session.evaluate (resolution session.input clauses fallback) := by
  have found : clauses.find? (fun clause => clause.Applies session.input) =
      ((clauses.zipIdx 0).find? fun entry => entry.1.Applies session.input).map Prod.fst := by
    rw [← List.zipIdx_map_fst 0 clauses, List.find?_map, List.zipIdx_map_fst]
    rfl
  rw [evaluate, declared, last, resolution, found]
  refine (Gives.effect _).bind ((select_gives session.input 0 clauses).bind ?_)
  cases (clauses.zipIdx 0).find? fun entry => entry.1.Applies session.input with
  | some entry =>
    refine (Gives.effect _).bind ((Gives.pure _).bind ?_)
    exact .pure _
  | none =>
    cases fallback with
    | some result =>
      refine (Gives.effect _).bind ((Gives.pure _).bind ?_)
      exact .pure _
    | none => exact (Gives.effect _).bind (.pure _)

variable {session : Session m ι α} {result : Option α}

theorem tryEvaluate_gives (gives : Gives session.evaluate result) :
    Gives session.tryEvaluate (result.elim (.error session.nonExhaustive) .ok) := by
  refine gives.bind ?_
  cases result <;> exact .pure _

theorem evaluateOr_gives (gives : Gives session.evaluate result) (substitute : α) :
    Gives (session.evaluateOr substitute) (result.getD substitute) :=
  gives.bind (.pure _)

theorem evaluateOrElse_gives (gives : Gives session.evaluate result) (substitute : α) :
    Gives (session.evaluateOrElse (pure substitute)) (result.getD substitute) := by
  refine gives.bind ?_
  cases result <;> exact .pure _

theorem build_lift_gives (input : ι) (declarations : List (Declaration Id ι α)) :
    Gives (build input (declarations.map Declaration.lift) : Session m ι α).evaluate
      (resolution input (declarations.filterMap Declaration.clause?)
        (declarations.filterMap Declaration.fallback?).getLast?) := by
  have declared := clauses_build input (declarations.map (Declaration.lift (m := m)))
  have last := fallback_build input (declarations.map (Declaration.lift (m := m)))
  simp only [List.filterMap_map, Function.comp_def, Declaration.clause?_lift,
    ← List.map_filterMap] at declared
  simp only [List.filterMap_map, Function.comp_def, Declaration.fallback?_lift,
    ← List.map_filterMap, List.getLast?_map] at last
  have gives := evaluate_gives declared last
  rwa [input_build] at gives

/-- The first clause of a chain that applies decides, else the last fallback, and all forms of
evaluation agree on it. Being observed does not change it. -/
theorem evaluate_first_match (input : ι) (declarations : List (Declaration Id ι α)) :
    ∃ result : Option α,
      (∀ other, Resolves input (declarations.filterMap Declaration.clause?)
        (declarations.filterMap Declaration.fallback?).getLast? other ↔ other = result) ∧
      (build input declarations).evaluate = result ∧
      (build input declarations).tryEvaluate =
        result.elim (.error ⟨(Inspectable.content input).kind,
          (declarations.filterMap Declaration.clause?).length⟩) .ok ∧
      (∀ substitute : α,
        (build input declarations).evaluateOr substitute = result.getD substitute ∧
        (build input declarations).evaluateOrElse substitute = result.getD substitute) ∧
      ∀ (n : Type → Type) [Monad n] [LawfulMonad n] [Observed n],
        Gives (build input (declarations.map Declaration.lift) : Session n ι α).evaluate
          result := by
  have gives := build_lift_gives (m := Id) input declarations
  rw [List.map_congr_left fun declaration _ => declaration.lift_id, List.map_id'] at gives
  have nonExhaustive : (build input declarations).nonExhaustive =
      ⟨(Inspectable.content input).kind, (declarations.filterMap Declaration.clause?).length⟩ := by
    rw [Session.nonExhaustive, input_build, size_build]
  refine ⟨_, fun other => ?_, Gives.of_id.mp gives, ?_, fun substitute => ⟨?_, ?_⟩, ?_⟩
  · exact ⟨Resolves.eq_resolution, fun same => same ▸ resolves_resolution⟩
  · rw [← nonExhaustive]
    exact Gives.of_id.mp (tryEvaluate_gives gives)
  · exact Gives.of_id.mp (evaluateOr_gives gives substitute)
  · exact Gives.of_id.mp (evaluateOrElse_gives gives substitute)
  · intro n _ _ _
    exact build_lift_gives input declarations

/-- A fallback between the clauses changes nothing as long as one of them applies. -/
theorem evaluate_first_match_alternating :
    (build (Value.ofInt 3) [.otherwise 1, .acceptIf .anyNumber (fun _ => false) fun _ => 2,
      .refuse .anyNumber fun _ => 3, .otherwise 4, .refuseIf .anyString (fun _ => true) fun _ => 5,
      .accept .anyNumber fun _ => 6] : Session Id Value Nat).tryEvaluate = .ok 5 := by
  obtain ⟨result, resolves, _, tried, _⟩ := evaluate_first_match (Value.ofInt 3)
    [.otherwise 1, .acceptIf .anyNumber (fun _ => false) fun _ => 2,
      .refuse .anyNumber fun _ => 3, .otherwise 4, .refuseIf .anyString (fun _ => true) fun _ => 5,
      .accept .anyNumber fun _ => 6]
  have third : some 5 = result := by
    refine (resolves _).mp (@Resolves.clause _ _ _ _ _ _ 2
      ⟨.anyString, .negated, some fun _ => true, fun _ => 5⟩ rfl (by decide) ?_)
    intro earlier other before there
    match earlier, before with
    | 0, _ => cases there; decide
    | 1, _ => cases there; decide
  rw [← third] at tried
  exact tried

end Session

end Conform
