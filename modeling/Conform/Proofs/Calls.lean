import Conform.Proofs.Selection
import Mathlib.Data.Nat.Find

/-!
Calls of closures: which closures of a session an evaluation calls when they work on a shared
state, with what and in which order.
-/

namespace Conform

variable {m n : Type → Type} {σ τ ι α β : Type}

/-- A call of one of the closures of a session. -/
inductive Call (ι : Type) where
  | guard (index : Nat) (input : ι)
  | transform (index : Nat) (input : ι)
  | fallback
  deriving DecidableEq, Repr

/-- What happens behind a state is observed as it is without the state. -/
instance [Monad n] [Observed n] : Observed (StateT σ n) where
  enabled level := StateT.lift (Observed.enabled level)
  record event := StateT.lift (Observed.record event)

namespace GrowingList

def ofList (entries : List α) : GrowingList α :=
  ⟨entries.reverse, entries.length, List.length_reverse.symm⟩

@[simp]
theorem toList_ofList (entries : List α) : (ofList entries).toList = entries :=
  List.reverse_reverse entries

theorem ofList_toList (list : GrowingList α) : ofList list.toList = list := by
  obtain ⟨newestFirst, size, rfl⟩ := list
  simp [ofList, toList]

end GrowingList

/-- A clause with its closures replaced, call by call. -/
def Clause.through (wrap : {β : Type} → Call ι → m β → n β) (index : Nat)
    (clause : Clause m ι α) : Clause n ι α where
  pattern := clause.pattern
  polarity := clause.polarity
  guard := clause.guard.map fun guard input => wrap (.guard index input) (guard input)
  transform input := wrap (.transform index input) (clause.transform input)

def Clause.throughFrom (wrap : {β : Type} → Call ι → m β → n β) (start : Nat) :
    List (Clause m ι α) → List (Clause n ι α)
  | [] => []
  | clause :: clauses => clause.through wrap start :: throughFrom wrap (start + 1) clauses

/-- A session with its closures replaced, call by call. -/
def Session.through (wrap : {β : Type} → Call ι → m β → n β) (session : Session m ι α) :
    Session n ι α where
  input := session.input
  clauses := .ofList (Clause.throughFrom wrap 0 session.clauses.toList)
  fallback := session.fallback.map (wrap .fallback)

theorem Clause.fires_through [Inspectable ι] (wrap : {β : Type} → Call ι → m β → n β) (index : Nat)
    (clause : Clause m ι α) (input : ι) :
    (clause.through wrap index).fires input = clause.fires input := rfl

theorem Clause.throughFrom_id (start : Nat) (clauses : List (Clause m ι α)) :
    throughFrom (fun _ closure => closure) start clauses = clauses := by
  induction clauses generalizing start with
  | nil => rfl
  | cons clause clauses ih =>
    obtain ⟨pattern, polarity, guard, transform⟩ := clause
    rw [throughFrom, ih]
    cases guard <;> rfl

theorem Session.through_id (session : Session m ι α) :
    session.through (fun _ closure => closure) = session := by
  obtain ⟨input, clauses, fallback⟩ := session
  rw [through, Clause.throughFrom_id, GrowingList.ofList_toList]
  cases fallback <;> rfl

/-- A closure that does what it did and logs that it is called. -/
def Call.log [Monad n] (call : Call ι) (closure : StateM σ β) :
    StateT (σ × List (Call ι)) n β :=
  fun (state, calls) => pure ((closure.run state).1, (closure.run state).2, calls ++ [call])

/-- The state when the guards of clauses have been asked one after the other. -/
def asked (input : ι) (clauses : List (Clause (StateM σ) ι α)) (state : σ) : σ :=
  clauses.foldl (fun state clause => ((clause.passes input).run state).2) state

/-- One call of every guard there is, in the order of the clauses. -/
def guardCalls (input : ι) (start : Nat) (clauses : List (Clause m ι α)) : List (Call ι) :=
  (clauses.zipIdx start).filterMap fun entry =>
    entry.1.guard.map fun _ => .guard entry.2 input

theorem guardCalls_cons (input : ι) (start : Nat) (clause : Clause m ι α)
    (clauses : List (Clause m ι α)) :
    guardCalls input start (clause :: clauses) =
      guardCalls input start [clause] ++ guardCalls input (start + 1) clauses := by
  rw [guardCalls, List.zipIdx_cons, ← List.singleton_append, List.filterMap_append]
  rfl

section

variable [Inspectable ι]

/-- Whether the clause at a position fires once all guards before it have been asked: its own guard,
if it has one, then holds, and the pattern accepts the input or does not as the polarity asks. -/
def FiresAt (input : ι) (clauses : List (Clause (StateM σ) ι α)) (state : σ)
    (position : Nat) : Prop :=
  ∃ clause, clauses[position]? = some clause ∧
    (∀ guard, clause.guard = some guard →
      ((guard input).run (asked input (clauses.take position) state)).1 = true) ∧
    (clause.pattern.accepts (Inspectable.content input) = true ↔ clause.polarity = .affirmative)

/-- The course of an evaluation from a state on: its result, its calls and the state it leaves. The
guards are asked up to the first clause that fires, whose transform is called; or all of them are
asked, and the fallback is called if it is set. -/
inductive Session.Course (session : Session (StateM σ) ι α) (state : σ) :
    Option α → List (Call ι) → σ → Prop where
  | fired {position : Nat} {clause : Clause (StateM σ) ι α} {result : α} {next : σ}
      (declared : session.clauses.toList[position]? = some clause)
      (fires : FiresAt session.input session.clauses.toList state position)
      (first : ∀ earlier < position,
        ¬ FiresAt session.input session.clauses.toList state earlier)
      (called : (clause.transform session.input).run
        (asked session.input (session.clauses.toList.take (position + 1)) state) = (result, next)) :
      Course session state (some result)
        (guardCalls session.input 0 (session.clauses.toList.take (position + 1)) ++
          [.transform position session.input]) next
  | fallback {produce : StateM σ α} {result : α} {next : σ}
      (silent : ∀ position, ¬ FiresAt session.input session.clauses.toList state position)
      (set : session.fallback = some produce)
      (called : produce.run (asked session.input session.clauses.toList state) = (result, next)) :
      Course session state (some result)
        (guardCalls session.input 0 session.clauses.toList ++ [.fallback]) next
  | exhausted
      (silent : ∀ position, ¬ FiresAt session.input session.clauses.toList state position)
      (unset : session.fallback = none) :
      Course session state none (guardCalls session.input 0 session.clauses.toList)
        (asked session.input session.clauses.toList state)

/-- The courses of several evaluations, one after the other. -/
inductive Session.Rounds (session : Session (StateM σ) ι α) :
    σ → List (Option α × List (Call ι)) → σ → Prop where
  | none {state : σ} : Rounds session state [] state
  | more {state middle final : σ} {result : Option α} {calls : List (Call ι)}
      {others : List (Option α × List (Call ι))}
      (course : session.Course state result calls middle)
      (rest : Rounds session middle others final) :
      Rounds session state ((result, calls) :: others) final

/-- Evaluates a session several times, one evaluation after the other. -/
def Session.evaluations [Monad m] [Observed m] (session : Session m ι α) :
    Nat → m (List (Option α))
  | 0 => pure []
  | times + 1 => do
    let result ← session.evaluate
    let results ← session.evaluations times
    return result :: results

end

section

variable [Inspectable ι] {input : ι} {clause : Clause (StateM σ) ι α}
  {clauses : List (Clause (StateM σ) ι α)} {state : σ}

theorem firesAt_zero : FiresAt input (clause :: clauses) state 0 ↔
    ((clause.passes input).run state).1 = true ∧ clause.fires input = true := by
  obtain ⟨pattern, polarity, guard, transform⟩ := clause
  constructor
  · rintro ⟨_, ⟨⟩, holds, accepts⟩
    refine ⟨?_, Polarity.fires_iff.mpr accepts⟩
    cases guard with
    | none => rfl
    | some guard => exact holds guard rfl
  · rintro ⟨passed, fires⟩
    refine ⟨_, rfl, ?_, Polarity.fires_iff.mp fires⟩
    rintro guard ⟨⟩
    exact passed

theorem firesAt_succ {position : Nat} : FiresAt input (clause :: clauses) state (position + 1) ↔
    FiresAt input clauses ((clause.passes input).run state).2 position :=
  Iff.rfl

/-- Every evaluation has a course. -/
theorem Session.exists_course (session : Session (StateM σ) ι α) (state : σ) :
    ∃ result calls next, session.Course state result calls next := by
  classical
  by_cases fires : ∃ position, FiresAt session.input session.clauses.toList state position
  · obtain ⟨clause, declared, _⟩ := Nat.find_spec fires
    exact ⟨_, _, _, .fired declared (Nat.find_spec fires)
      (fun _ before => Nat.find_min fires before) rfl⟩
  · have silent := not_exists.mp fires
    cases set : session.fallback with
    | some produce => exact ⟨_, _, _, .fallback silent set rfl⟩
    | none => exact ⟨_, _, _, .exhausted silent set⟩

theorem Session.exists_rounds (session : Session (StateM σ) ι α) (state : σ) (times : Nat) :
    ∃ rounds final, rounds.length = times ∧ session.Rounds state rounds final := by
  induction times generalizing state with
  | zero => exact ⟨[], state, rfl, .none⟩
  | succ times ih =>
    obtain ⟨result, calls, middle, course⟩ := session.exists_course state
    obtain ⟨rounds, final, rfl, rest⟩ := ih middle
    exact ⟨(result, calls) :: rounds, final, rfl, .more course rest⟩

end

/-- Replaced closures do what they did to a part of another state, whose rest depends on the calls
alone. -/
def Embeds [Monad n] (wrap : {β : Type} → Call ι → StateM σ β → StateT τ n β)
    (embed : σ → List (Call ι) → τ) : Prop :=
  ∀ {β : Type} (call : Call ι) (closure : StateM σ β) (state : σ) (calls : List (Call ι)),
    (wrap call closure).run (embed state calls) =
      pure ((closure.run state).1, embed (closure.run state).2 (calls ++ [call]))

theorem Embeds.id :
    Embeds (n := Id) (fun {β} (_ : Call ι) (closure : StateM σ β) => closure)
      fun state _ => state :=
  fun _ _ _ _ => rfl

theorem Embeds.log [Monad n] :
    Embeds (n := n) (fun {β} (call : Call ι) (closure : StateM σ β) => call.log closure) Prod.mk :=
  fun _ _ _ _ => rfl

section

variable [Monad n] {wrap : {β : Type} → Call ι → StateM σ β → StateT τ n β}
  {embed : σ → List (Call ι) → τ} {input : ι} {clause : Clause (StateM σ) ι α} {state : σ}
  {calls : List (Call ι)}

theorem Embeds.run_passes (embeds : Embeds wrap embed) (index : Nat) :
    ((clause.through wrap index).passes input).run (embed state calls) =
      pure (((clause.passes input).run state).1,
        embed (asked input [clause] state) (calls ++ guardCalls input index [clause])) := by
  obtain ⟨pattern, polarity, guard, transform⟩ := clause
  cases guard with
  | none =>
    have quiet : calls ++ guardCalls input index [⟨pattern, polarity, none, transform⟩] = calls :=
      List.append_nil calls
    rw [quiet]
    rfl
  | some guard => exact embeds (.guard index input) (guard input) state calls

variable [LawfulMonad n]

theorem Embeds.gives (embeds : Embeds wrap embed) {closure : StateM σ β} {result : β} {next : σ}
    (called : closure.run state = (result, next)) (call : Call ι) :
    Gives ((wrap call closure).run (embed state calls)) (result, embed next (calls ++ [call])) := by
  rw [embeds, called]
  exact .pure _

theorem Gives.run_bind {computation : StateT τ n α} {next : α → StateT τ n β}
    {state : τ} {middle : α × τ} {result : β × τ} (first : Gives (computation.run state) middle)
    (rest : Gives ((next middle.1).run middle.2) result) :
    Gives ((computation >>= next).run state) result := by
  rw [StateT.run_bind]
  exact first.bind rest

theorem emit_run_gives [Observed n] (event : Event) (state : τ) :
    Gives ((emit event : StateT τ n Unit).run state) ((), state) := by
  have lifted : (emit event : StateT τ n Unit).run state =
      (emit event : n Unit) >>= fun _ => pure ((), state) := by
    rw [emit, StateT.run_bind]
    change (StateT.lift (Observed.enabled event.level)).run state >>= _ = _
    rw [StateT.run_lift, emit, bind_assoc, bind_assoc]
    refine bind_congr fun noted => ?_
    rw [pure_bind]
    cases noted with
    | true => exact StateT.run_lift _ _
    | false => exact (pure_bind () fun _ => pure ((), state)).symm
  rw [lifted]
  exact (Gives.effect _).bind (.pure _)

end

namespace Session

section

variable [Monad n] [LawfulMonad n] [Observed n] [Inspectable ι]
  {wrap : {β : Type} → Call ι → StateM σ β → StateT τ n β} {embed : σ → List (Call ι) → τ}
  {input : ι} {clause : Clause (StateM σ) ι α} {clauses : List (Clause (StateM σ) ι α)} {state : σ}

theorem select_fires (embeds : Embeds wrap embed) {start : Nat} {calls : List (Call ι)}
    {others : List (Clause (StateT τ n) ι α)} (fires : FiresAt input (clause :: clauses) state 0) :
    Gives ((select input start (clause.through wrap start :: others)).run (embed state calls))
      (some (start, clause.through wrap start),
        embed (asked input [clause] state) (calls ++ guardCalls input start [clause])) := by
  obtain ⟨passed, fires⟩ := firesAt_zero.mp fires
  rw [select, StateT.run_bind, embeds.run_passes, pure_bind, Clause.fires_through, if_pos passed,
    if_pos fires]
  exact .pure _

theorem select_skips (embeds : Embeds wrap embed) {start : Nat} {calls : List (Call ι)}
    {others : List (Clause (StateT τ n) ι α)}
    {selected : Option (Nat × Clause (StateT τ n) ι α) × τ}
    (silent : ¬ FiresAt input (clause :: clauses) state 0)
    (rest : Gives ((select input (start + 1) others).run (embed (asked input [clause] state)
      (calls ++ guardCalls input start [clause]))) selected) :
    Gives ((select input start (clause.through wrap start :: others)).run (embed state calls))
      selected := by
  rw [select, StateT.run_bind, embeds.run_passes, pure_bind, Clause.fires_through]
  split
  · rename_i passed
    rw [if_neg fun fires => silent (firesAt_zero.mpr ⟨passed, fires⟩)]
    refine Gives.run_bind (emit_run_gives (clause.skipped input start) _) ?_
    exact rest
  · refine Gives.run_bind (emit_run_gives (.guardRejected start) _) ?_
    exact rest

theorem select_fired (embeds : Embeds wrap embed) (start : Nat) (calls : List (Call ι))
    {position : Nat} (declared : clauses[position]? = some clause)
    (fires : FiresAt input clauses state position)
    (first : ∀ earlier < position, ¬ FiresAt input clauses state earlier) :
    Gives ((select input start (Clause.throughFrom wrap start clauses)).run (embed state calls))
      (some (start + position, clause.through wrap (start + position)),
        embed (asked input (clauses.take (position + 1)) state)
          (calls ++ guardCalls input start (clauses.take (position + 1)))) := by
  induction clauses generalizing start position state calls with
  | nil => cases declared
  | cons head clauses ih =>
    cases position with
    | zero =>
      cases declared
      exact select_fires embeds fires
    | succ position =>
      refine select_skips embeds (first 0 (Nat.zero_lt_succ position)) ?_
      have later := ih (start + 1) (calls ++ guardCalls input start [head]) declared
        (firesAt_succ.mp fires)
        fun earlier before => first (earlier + 1) (Nat.succ_lt_succ before)
      rwa [List.append_assoc, ← guardCalls_cons, Nat.add_right_comm] at later

theorem select_silent (embeds : Embeds wrap embed) (start : Nat) (calls : List (Call ι))
    (silent : ∀ position, ¬ FiresAt input clauses state position) :
    Gives ((select input start (Clause.throughFrom wrap start clauses)).run (embed state calls))
      (none, embed (asked input clauses state) (calls ++ guardCalls input start clauses)) := by
  induction clauses generalizing start state calls with
  | nil =>
    have quiet : calls ++ guardCalls input start ([] : List (Clause (StateM σ) ι α)) = calls :=
      List.append_nil calls
    rw [quiet]
    exact .pure _
  | cons head clauses ih =>
    refine select_skips embeds (silent 0) ?_
    have later := ih (start + 1) (calls ++ guardCalls input start [head])
      fun position => silent (position + 1)
    rwa [List.append_assoc, ← guardCalls_cons] at later

/-- An evaluation with replaced closures takes the course of the one without. -/
theorem Course.gives {session : Session (StateM σ) ι α} {result : Option α}
    {calls : List (Call ι)} {next : σ} (course : session.Course state result calls next)
    (embeds : Embeds wrap embed) (earlier : List (Call ι)) :
    Gives ((session.through wrap).evaluate.run (embed state earlier))
      (result, embed next (earlier ++ calls)) := by
  have declared : (session.through wrap).clauses.toList =
      Clause.throughFrom wrap 0 session.clauses.toList :=
    GrowingList.toList_ofList _
  rw [evaluate, declared]
  refine Gives.run_bind (emit_run_gives _ _) ?_
  cases course with
  | fired there fires first called =>
    rw [← List.append_assoc]
    refine Gives.run_bind (select_fired embeds 0 earlier there fires first) ?_
    refine Gives.run_bind (emit_run_gives _ _) ?_
    rw [Nat.zero_add]
    refine Gives.run_bind (embeds.gives called _) ?_
    exact .pure _
  | fallback silent set called =>
    rw [← List.append_assoc]
    have last : (session.through wrap).fallback = some (wrap .fallback _) :=
      congrArg (Option.map (wrap .fallback)) set
    rw [last]
    refine Gives.run_bind (select_silent embeds 0 earlier silent) ?_
    refine Gives.run_bind (emit_run_gives _ _) ?_
    refine Gives.run_bind (embeds.gives called _) ?_
    exact .pure _
  | exhausted silent unset =>
    have last : (session.through wrap).fallback = none :=
      congrArg (Option.map (wrap .fallback)) unset
    rw [last]
    refine Gives.run_bind (select_silent embeds 0 earlier silent) ?_
    refine Gives.run_bind (emit_run_gives _ _) ?_
    exact .pure _

theorem Rounds.gives {session : Session (StateM σ) ι α}
    {rounds : List (Option α × List (Call ι))} {final : σ}
    (courses : session.Rounds state rounds final) (embeds : Embeds wrap embed) (earlier : List (Call ι)) :
    Gives (((session.through wrap).evaluations rounds.length).run (embed state earlier))
      (rounds.map Prod.fst, embed final (earlier ++ rounds.flatMap Prod.snd)) := by
  induction courses generalizing earlier with
  | none =>
    rw [List.flatMap_nil, List.append_nil]
    exact .pure _
  | more course rest ih =>
    rw [List.length_cons, evaluations, List.flatMap_cons, ← List.append_assoc]
    refine Gives.run_bind (course.gives embeds earlier) ?_
    refine Gives.run_bind (ih _) ?_
    exact .pure _

end

/-- The discipline of calls: each of several evaluations of a session takes the course of its own
state, with the guards up to the first clause that fires and its transform, or all guards and the
fallback. This is so whoever observes the evaluations. -/
theorem evaluations_calls [Inspectable ι] (session : Session (StateM σ) ι α) (state : σ)
    (times : Nat) :
    ∃ rounds final, rounds.length = times ∧ session.Rounds state rounds final ∧
      (session.evaluations times).run state = (rounds.map Prod.fst, final) ∧
      ∀ (n : Type → Type) [Monad n] [LawfulMonad n] [Observed n] (earlier : List (Call ι)),
        Gives (((session.through (n := StateT (σ × List (Call ι)) n) Call.log).evaluations
          times).run (state, earlier))
          (rounds.map Prod.fst, final, earlier ++ rounds.flatMap Prod.snd) := by
  obtain ⟨rounds, final, rfl, courses⟩ := session.exists_rounds state times
  refine ⟨rounds, final, rfl, courses, ?_, fun n _ _ _ => courses.gives Embeds.log⟩
  have plain := courses.gives Embeds.id []
  rw [session.through_id] at plain
  exact Gives.of_id.mp plain

/-- A session whose guards count that they are asked, and in which a clause fires until the count
is two. -/
def counting : Session (StateM Nat) Value String :=
  build (.ofInt 3) [
    .acceptIf .anyString (fun _ count => (true, count + 1)) fun _ => pure "text",
    .refuse .anyNumber fun _ => pure "no number",
    .refuseIf .anyString (fun _ count => (count.ble 1, count + 1)) fun _ => pure "no text",
    .otherwise (pure "nothing")]

/-- The second evaluation asks all guards again, and another closure gives its result. -/
theorem evaluations_calls_counting :
    ∃ rounds final, counting.Rounds 0 rounds final ∧
      rounds.map Prod.fst = [some "no text", some "nothing"] ∧
      rounds.flatMap Prod.snd = [.guard 0 (.ofInt 3), .guard 2 (.ofInt 3),
        .transform 2 (.ofInt 3), .guard 0 (.ofInt 3), .guard 2 (.ofInt 3), .fallback] := by
  obtain ⟨rounds, final, _, courses, _, logged⟩ := evaluations_calls counting 0 2
  have told := Gives.of_id.mp (logged Id [])
  have results := congrArg (fun outcome => outcome.1) told
  have calls := congrArg (fun outcome => outcome.2.2) told
  exact ⟨rounds, final, courses, results.symm, calls.symm⟩

end Session

end Conform
