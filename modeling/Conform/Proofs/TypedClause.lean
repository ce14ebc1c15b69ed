import Conform.DataType
import Conform.Proofs.Firing
import Mathlib.Data.List.Forall2

/-!
Typed clauses among others. They are chosen by their patterns like untyped ones, only the one that
is chosen reads the input, and an error in reading it is the result.
-/

namespace Conform

variable {m : Type → Type} {ι α δ : Type}

/-- Reads the input as typed data and goes on with it. An error in reading is the result. -/
def readInput [Monad m] [Inspectable ι] (read : Json → m (Decoded δ)) (transform : δ → m α)
    (input : ι) : m (Except ConversionError α) := do
  match ← read (Inspectable.content input).toJson with
  | .ok data => return .ok (← transform data)
  | .error problem => return .error (.deserialize problem)

section

variable [Monad m] [LawfulMonad m] [Inspectable ι] {read : Json → m (Decoded δ)} {input : ι}

theorem readInput_of_reads {data : δ} (transform : δ → m α)
    (reads : Gives (read (Inspectable.content input).toJson) (.ok data)) :
    ∃ effects : m Unit,
      readInput read transform input = effects >>= fun _ => (do return .ok (← transform data)) := by
  obtain ⟨effects, same⟩ := reads
  refine ⟨effects, ?_⟩
  simp only [readInput, same, bind_assoc, pure_bind]

theorem readInput_of_fails {problem : DecodeError} (transform : δ → m α)
    (fails : Gives (read (Inspectable.content input).toJson) (.error problem)) :
    Gives (readInput read transform input) (.error (.deserialize problem)) :=
  fails.bind (.pure _)

end

/-- A call that continues a session in which reading may fail. What reads the input of a typed
clause may have effects, which show when and how often it is used. -/
inductive MixedDeclaration (m : Type → Type) (ι α : Type) : Type 1 where
  | untyped (declaration : Declaration m ι (Except ConversionError α))
  | typed {δ : Type} (pattern : Pattern) (read : Json → m (Decoded δ)) (transform : δ → m α)

namespace MixedDeclaration

/-- The typed clauses make way for untyped ones with the same patterns. -/
inductive ReplacedBy : MixedDeclaration m ι α → Declaration m ι (Except ConversionError α) → Prop
  where
  | untyped {declaration : Declaration m ι (Except ConversionError α)} :
      ReplacedBy (.untyped declaration) declaration
  | typed {δ : Type} {pattern : Pattern} {read : Json → m (Decoded δ)} {transform : δ → m α}
      {substitute : ι → m (Except ConversionError α)} :
      ReplacedBy (.typed pattern read transform) (.accept pattern substitute)

variable [Monad m] [Inspectable ι]

/-- The declaration itself, with the reading in the transform. -/
def plain : MixedDeclaration m ι α → Declaration m ι (Except ConversionError α)
  | .untyped declaration => declaration
  | .typed pattern read transform => .accept pattern (readInput read transform)

end MixedDeclaration

namespace Session

variable [Monad m] [Inspectable ι]

def buildMixed (input : ι) (declarations : List (MixedDeclaration m ι α)) :
    Session m ι (Except ConversionError α) :=
  build input (declarations.map MixedDeclaration.plain)

/-- Typed data is read without effects. -/
theorem acceptAs_eq_extend [LawfulMonad m] [Decode δ]
    (session : Session m ι (Except ConversionError α)) (pattern : Pattern) (transform : δ → m α) :
    session.acceptAs pattern transform =
      session.extend (MixedDeclaration.typed pattern (fun json => pure (decode json))
        transform).plain := by
  refine congrArg (session.accept pattern) (funext fun input => ?_)
  rw [readInput, pure_bind, Value.toData]
  cases decode (α := δ) (Inspectable.content input).toJson <;> rfl

end Session

namespace MixedDeclaration

variable [Monad m] [Inspectable ι]

theorem ReplacedBy.mute {mixed : MixedDeclaration m ι α}
    {declaration : Declaration m ι (Except ConversionError α)}
    (replaced : mixed.ReplacedBy declaration) :
    mixed.plain.clause?.map Clause.mute = declaration.clause?.map Clause.mute := by
  cases replaced <;> rfl

end MixedDeclaration

namespace Session

variable [Monad m] [LawfulMonad m] [Observed m] [Inspectable ι]

theorem firing_buildMixed (input : ι) {declarations : List (MixedDeclaration m ι α)}
    {others : List (Declaration m ι (Except ConversionError α))}
    (replaced : List.Forall₂ MixedDeclaration.ReplacedBy declarations others) :
    (buildMixed input declarations).firing = (build input others).firing := by
  apply firing_congr
  · rw [buildMixed, input_build, input_build]
  · rw [buildMixed, clauses_build, clauses_build, List.map_filterMap, List.map_filterMap]
    induction replaced with
    | nil => rfl
    | cons head _ ih => simp only [List.map_cons, List.filterMap_cons, head.mute, ih]

/-- A typed clause has its place in a session, and whatever comes of reading the input there is
final. -/
structure FinalReading (session : Session m ι (Except ConversionError α)) (index : Nat)
    (pattern : Pattern) (read : Json → m (Decoded δ)) (transform : δ → m α) : Prop where
  /-- First it is settled which clause fires, and only then something is done about it. -/
  evaluate_eq : session.evaluate = (do
    emit (.evaluation session.size (Inspectable.content session.input).kind)
    session.conclude (← session.firing))
  /-- If it is the typed one, it reads the input, once. -/
  conclude_eq : session.conclude (some index) = (do
    emit (.fired index ⟨pattern, .affirmative, false⟩)
    return some (← readInput read transform session.input))
  /-- The data that was read is transformed to the result. -/
  decoded : Gives session.firing (some index) → ∀ data,
    Gives (read (Inspectable.content session.input).toJson) (.ok data) → ∃ effects : m Unit,
      session.evaluate = (effects >>= fun _ => do return some (.ok (← transform data))) ∧
      session.tryEvaluate = effects >>= fun _ => do return .ok (.ok (← transform data))
  /-- The error is the result. No other clause and no fallback stands in, and a result is not
  missing. -/
  refused : Gives session.firing (some index) → ∀ problem,
    Gives (read (Inspectable.content session.input).toJson) (.error problem) →
      Gives session.evaluate (some (.error (.deserialize problem))) ∧
        Gives session.tryEvaluate (.ok (.error (.deserialize problem)))

theorem finalReading_of_declared {session : Session m ι (Except ConversionError α)} {index : Nat}
    {pattern : Pattern} {read : Json → m (Decoded δ)} {transform : δ → m α}
    (declared : session.clauses.toList[index]? =
      some ⟨pattern, .affirmative, none, readInput read transform⟩) :
    session.FinalReading index pattern read transform where
  evaluate_eq := session.evaluate_eq_conclude
  conclude_eq := conclude_of_declared declared
  decoded fires data reads := by
    obtain ⟨effects, evaluated⟩ := evaluate_of_fires declared fires
    obtain ⟨others, same⟩ := readInput_of_reads transform reads
    simp only [same, bind_assoc, pure_bind] at evaluated
    refine ⟨effects >>= fun _ => others, ?_, ?_⟩
    · rw [evaluated, bind_assoc]
    · rw [tryEvaluate, evaluated]
      simp only [bind_assoc, pure_bind]
  refused fires problem fails := by
    obtain ⟨effects, evaluated⟩ := evaluate_of_fires declared fires
    have gives : Gives session.evaluate (some (.error (.deserialize problem))) := by
      rw [evaluated]
      exact (Gives.effect effects).bind ((readInput_of_fails transform fails).bind (.pure _))
    exact ⟨gives, tryEvaluate_gives gives⟩

/-- Typed clauses are chosen as untyped ones with their patterns would be. Only the clause that is
chosen reads the input, and what becomes of that is final. One that is not chosen does nothing, so
any other transform might stand there. -/
theorem reading_final (input : ι) :
    (∀ (δ : Type) [Decode δ] (session : Session m ι (Except ConversionError α)) (pattern : Pattern)
      (transform : δ → m α), session.acceptAs pattern transform =
        session.extend (MixedDeclaration.typed pattern (fun json => pure (decode json))
          transform).plain) ∧
    (∀ (declarations : List (MixedDeclaration m ι α))
      (others : List (Declaration m ι (Except ConversionError α))),
      List.Forall₂ MixedDeclaration.ReplacedBy declarations others →
        (buildMixed input declarations).firing = (build input others).firing) ∧
    ∀ (before after : List (MixedDeclaration m ι α)) (δ : Type) (pattern : Pattern)
      (read : Json → m (Decoded δ)) (transform : δ → m α),
      (buildMixed input (before ++ .typed pattern read transform :: after)).FinalReading
        (buildMixed input before).size pattern read transform ∧
      ∀ substitute index, index ≠ some (buildMixed input before).size →
        (buildMixed input (before ++ .typed pattern read transform :: after)).conclude index =
          (buildMixed input (before ++ .untyped (.accept pattern substitute) :: after)).conclude
            index ∧
        (Gives (buildMixed input (before ++ .typed pattern read transform :: after)).firing index →
          (buildMixed input (before ++ .typed pattern read transform :: after)).evaluate =
            (buildMixed input (before ++ .untyped (.accept pattern substitute) ::
              after)).evaluate) := by
  refine ⟨fun δ _ session pattern transform => session.acceptAs_eq_extend pattern transform,
    fun _ _ replaced => firing_buildMixed input replaced, ?_⟩
  intro before after δ pattern read transform
  constructor
  · apply finalReading_of_declared
    rw [buildMixed, List.map_append]
    exact getElem?_build_append 0
  · intro substitute index apart
    rw [buildMixed, buildMixed, List.map_append, List.map_append]
    exact ⟨conclude_of_ne apart, evaluate_of_ne apart⟩

/-- A record that the pattern accepts and that is no blog, with a fallback before and a clause
behind that would take it; a record that is a blog; a list, which an earlier clause takes unread. -/
theorem reading_final_missing :
    ∃ (before after : List (MixedDeclaration Id Value Nat)) (typed : MixedDeclaration Id Value Nat)
      (others : List (Declaration Id Value (Except ConversionError Nat))),
      before = [.untyped (.otherwise (.ok 0)),
        .untyped (.accept (.sequence .anyNumber) fun _ => .ok 1)] ∧
      typed = .typed (.object []) decode (fun blog : Blog => blog.title.length) ∧
      after = [.untyped (.refuse .anyString fun _ => .ok 2)] ∧
      others = [.otherwise (.ok 0), .accept (.sequence .anyNumber) fun _ => .ok 1,
        .accept (.object []) fun _ => .ok 3, .refuse .anyString fun _ => .ok 2] ∧
      (buildMixed (.list []) (before ++ typed :: after)).firing =
        (build (.list []) others).firing ∧
      (buildMixed (.list []) (before ++ typed :: after)).evaluate =
        (buildMixed (.list []) (before ++ .untyped (.accept (.object []) fun _ => .ok 3) ::
          after)).evaluate ∧
      (buildMixed (.ofPairs [("Title", .string "x")]) (before ++ typed :: after)).tryEvaluate =
        .ok (.error (.deserialize (.missingField "Id"))) ∧
      (buildMixed (.ofPairs [("Title", .string "x"), ("Id", .ofInt 7)])
        (before ++ typed :: after)).tryEvaluate = .ok (.ok 1) := by
  have laws := fun input => (@reading_final Id Value Nat _ _ _ _ input).2
  have read := fun input => (laws input).2 [.untyped (.otherwise (.ok 0)),
    .untyped (.accept (.sequence .anyNumber) fun _ => .ok 1)]
    [.untyped (.refuse .anyString fun _ => .ok 2)] Blog (.object []) decode
    (fun blog => blog.title.length)
  refine ⟨_, _, _, _, rfl, rfl, rfl, rfl, ?_, ?_, ?_, ?_⟩
  · exact (laws _).1 _ _ (.cons .untyped (.cons .untyped (.cons .typed (.cons .untyped .nil))))
  · obtain ⟨_, unread⟩ := read (.list [])
    exact (unread _ (some 0) (by decide)).2 (Gives.of_id.mpr rfl)
  · obtain ⟨chosen, _⟩ := read (.ofPairs [("Title", .string "x")])
    exact Gives.of_id.mp (chosen.refused (Gives.of_id.mpr rfl) _ (Gives.of_id.mpr rfl)).2
  · obtain ⟨chosen, _⟩ := read (.ofPairs [("Title", .string "x"), ("Id", .ofInt 7)])
    obtain ⟨_, _, evaluated⟩ := chosen.decoded (Gives.of_id.mpr rfl) ⟨7, "x"⟩ (Gives.of_id.mpr rfl)
    exact evaluated

end Session

end Conform
