import Conform.Pattern.Template
import Conform.Script.Closure

/-!
Scripts: programs that build named sessions over given values, step by step, and evaluate them.
-/

namespace Conform.Script

/-- How a session is evaluated. -/
inductive Mode (σ : Type) where
  | plain
  | strict
  /-- The substitute is made before the evaluation. -/
  | substitute (make : σ)
  /-- The substitute is made when it is needed. -/
  | lazySubstitute (make : σ)

def Mode.mapM {m : Type → Type} [Monad m] {σ τ : Type} (f : σ → m τ) : Mode σ → m (Mode τ)
  | .plain => return .plain
  | .strict => return .strict
  | .substitute make => return .substitute (← f make)
  | .lazySubstitute make => return .lazySubstitute (← f make)

/-- The two ways in which a session is shown. -/
inductive View where
  | readable
  | structural
  deriving DecidableEq, Repr

/-- A step of a script. A step that makes a session without a target name drops it again. -/
inductive Step where
  /-- A new session over a value, which is given by its index. -/
  | start (target : Option String) (index : Nat)
  | copy (target : Option String) (source : String)
  | clause (target : Option String) (source : String) (polarity : Polarity) (pattern : Pattern)
      (guard : Option Guard) (expression : Expression)
  | typedClause (target : Option String) (source : String) (pattern : Pattern) (type : DataType)
      (label : String)
  | fallback (target : Option String) (source : String) (expression : Expression)
  | overview (source : String) (view : View)
  | evaluate (source : String) (mode : Mode Expression) (observer : Option Level)
  /-- A step whose pattern was to come from something that is no template. It does nothing. -/
  | refused (error : TemplateError)

/-- What came of an evaluation. -/
inductive Outcome where
  /-- A value, and whether it is strictly equal to the input of the session. -/
  | value (content : Value) (same : Bool)
  | failure (error : ConversionError)
  | nothing
  | nonExhaustive (error : NonExhaustive)
  | aborted (text : String)

inductive Answer where
  | session (size : Nat) (hasFallback : Bool)
  | refused (error : TemplateError)
  | overview (overview : Overview) (view : View)
  /-- The outcome, the labels of the closures that were called, and what the observer recorded if
  there was one. -/
  | evaluated (outcome : Outcome) (calls : List String) (events : Option (List Event))

/-- The values and sessions of a script, and the world of their closures. -/
structure Workshop where
  values : List Shared
  sessions : Sessions
  world : World

namespace Workshop

/-- A workshop with new values and no sessions. -/
def ofBlueprints (blueprints : List Blueprint) : Workshop :=
  let (values, nextStamp) := (Blueprint.buildItems blueprints).run 0
  ⟨values, .nil, { nextStamp }⟩

def store (workshop : Workshop) (target : Option String) (session : ScriptSession) :
    Answer × Workshop :=
  let sessions := match target with
    | some name => workshop.sessions.insert name session
    | none => workshop.sessions
  (.session session.size session.hasFallback, { workshop with sessions })

/-- Makes something in the world of the workshop. -/
def setup? {α : Type} (workshop : Workshop) (make : Setup α) : Option (α × Workshop) :=
  let (made, world) := make.run.run workshop.world
  made.map fun result => (result, { workshop with world })

end Workshop

/-- Declares a clause of either polarity, with or without a guard. -/
def declare (session : ScriptSession) (polarity : Polarity) (pattern : Pattern)
    (guard : Option (Shared → Run Bool)) (transform : Shared → Run Result) : ScriptSession :=
  match polarity, guard with
  | .affirmative, none => session.accept pattern transform
  | .affirmative, some guard => session.acceptIf pattern guard transform
  | .negated, none => session.refuse pattern transform
  | .negated, some guard => session.refuseIf pattern guard transform

def Outcome.ofResult (input : Shared) : Result → Outcome
  | .ok result => .value result.content (result.strictEqual input)
  | .error error => .failure error

/-- Evaluates a session in a mode. Substitutes are functions of null. -/
def evaluateIn (session : ScriptSession) : Mode (Shared → Run Result) → Run Outcome
  | .plain => do
    match ← session.evaluate with
    | some result => return .ofResult session.input result
    | none => return .nothing
  | .strict => do
    match ← session.tryEvaluate with
    | .ok result => return .ofResult session.input result
    | .error error => return .nonExhaustive error
  | .substitute make => do
    let substitute ← make (← mint Shared.null)
    return .ofResult session.input (← session.evaluateOr substitute)
  | .lazySubstitute make => do
    let result ← session.evaluateOrElse do make (← mint Shared.null)
    return .ofResult session.input result

namespace Workshop

/-- Runs an evaluation with an empty log and the given observer, and collects what it left. -/
def observe (workshop : Workshop) (observer : Option Level) (run : Run Outcome) :
    Answer × Workshop :=
  let world := { workshop.world with calls := [], events := [], observer }
  let (result, world) := run.run.run world
  let outcome := match result with
    | .ok outcome => outcome
    | .error abort => .aborted abort.text
  (.evaluated outcome world.calls.reverse (observer.map fun _ => world.events.reverse),
    { workshop with world := { world with calls := [], events := [], observer := none } })

/-- Runs a step; absent when it names a value or a session that there is not. -/
def step? (workshop : Workshop) : Step → Option (Answer × Workshop)
  | .start target index => do
    let input ← workshop.values[index]?
    return workshop.store target (.new input)
  | .copy target source => do
    return workshop.store target (← workshop.sessions.find? source)
  | .clause target source polarity pattern guard expression => do
    let session ← workshop.sessions.find? source
    let (guard, workshop) ← workshop.setup? (guard.mapM Guard.closure)
    let (transform, workshop) ← workshop.setup? (expression.closure workshop.sessions)
    return workshop.store target (declare session polarity pattern guard transform)
  | .typedClause target source pattern type label => do
    let session ← workshop.sessions.find? source
    return workshop.store target (session.acceptAs pattern (typedTransform label type))
  | .fallback target source expression => do
    let session ← workshop.sessions.find? source
    let (produce, workshop) ← workshop.setup? (expression.closure workshop.sessions)
    return workshop.store target (session.otherwise do produce (← mint Shared.null))
  | .overview source view => do
    return (.overview (← workshop.sessions.find? source).overview view, workshop)
  | .evaluate source mode observer => do
    let session ← workshop.sessions.find? source
    let (mode, workshop) ← workshop.setup? (mode.mapM (·.closure workshop.sessions))
    return workshop.observe observer (evaluateIn session mode)
  | .refused error => return (.refused error, workshop)

/-- Runs a script from its first step on. -/
def run? (workshop : Workshop) : List Step → Option (List Answer × Workshop)
  | [] => some ([], workshop)
  | step :: steps => do
    let (answer, next) ← workshop.step? step
    let (answers, final) ← next.run? steps
    return (answer :: answers, final)

end Workshop

end Conform.Script
