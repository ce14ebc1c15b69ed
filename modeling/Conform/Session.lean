import Conform.Codec
import Conform.Session.Event

/-!
Match sessions: an input with clauses that are tried in the order of their declaration, and a
fallback for when none fires.

Sessions are values. Declaring a clause or a fallback makes a new session and leaves the old one
as it was, so that a session can be continued in several ways.
-/

namespace Conform

structure Session (m : Type → Type) (ι α : Type) where
  input : ι
  clauses : GrowingList (Clause m ι α)
  fallback : Option (m α)

/-- No clause fired and there is no fallback. -/
structure NonExhaustive where
  kind : Kind
  clauses : Nat
  deriving DecidableEq, Repr

def NonExhaustive.message (error : NonExhaustive) : String :=
  "non-exhaustive match: none of " ++ toString error.clauses ++ " clause(s) fired for the "
    ++ error.kind.name ++ " value and no fallback is set"

namespace Session

variable {m : Type → Type} {ι α : Type}

/-- A session without clauses and without fallback. -/
def new (input : ι) : Session m ι α :=
  ⟨input, .empty, none⟩

def size (session : Session m ι α) : Nat :=
  session.clauses.size

def isEmpty (session : Session m ι α) : Bool :=
  session.size == 0

def hasFallback (session : Session m ι α) : Bool :=
  session.fallback.isSome

/-- The clauses as they can be seen from outside, in the order of their declaration. -/
def headings (session : Session m ι α) : List Heading :=
  session.clauses.toList.map Clause.heading

/-- Declares a clause after all others. -/
def declare (session : Session m ι α) (clause : Clause m ι α) : Session m ι α :=
  { session with clauses := session.clauses.push clause }

/-- Declares a clause for values that the pattern accepts. -/
def accept (session : Session m ι α) (pattern : Pattern) (transform : ι → m α) :
    Session m ι α :=
  session.declare ⟨pattern, .affirmative, none, transform⟩

/-- Declares a clause for values that pass the guard and that the pattern accepts. -/
def acceptIf (session : Session m ι α) (pattern : Pattern) (guard : ι → m Bool)
    (transform : ι → m α) : Session m ι α :=
  session.declare ⟨pattern, .affirmative, some guard, transform⟩

/-- Declares a clause for values that the pattern does not accept. -/
def refuse (session : Session m ι α) (pattern : Pattern) (transform : ι → m α) :
    Session m ι α :=
  session.declare ⟨pattern, .negated, none, transform⟩

/-- Declares a clause for values that pass the guard and that the pattern does not accept. -/
def refuseIf (session : Session m ι α) (pattern : Pattern) (guard : ι → m Bool)
    (transform : ι → m α) : Session m ι α :=
  session.declare ⟨pattern, .negated, some guard, transform⟩

/-- Sets the fallback. There is one at most; a later one replaces an earlier one. -/
def otherwise (session : Session m ι α) (produce : m α) : Session m ι α :=
  { session with fallback := some produce }

variable [Monad m] [Observed m] [Inspectable ι]

/-- Lets the observer know why a clause does not fire. The mismatch is looked for only if
somebody wants to know. -/
def noteSkipped (input : ι) (index : Nat) (clause : Clause m ι α) : m Unit := do
  if ← Observed.enabled .trace then
    Observed.record (clause.skipped input index)

/-- The first clause that fires, with its index. The guard of a clause is asked before its
pattern is looked at, whatever the polarity. -/
def select (input : ι) : Nat → List (Clause m ι α) → m (Option (Nat × Clause m ι α))
  | _, [] => pure none
  | index, clause :: clauses => do
    if ← clause.passes input then
      if clause.fires input then return some (index, clause)
      noteSkipped input index clause
    else emit (.guardRejected index)
    select input (index + 1) clauses

/-- The result of the first clause that fires, else that of the fallback. -/
def evaluate (session : Session m ι α) : m (Option α) := do
  emit (.evaluation session.size (Inspectable.content session.input).kind)
  match ← select session.input 0 session.clauses.toList with
  | some (index, clause) =>
    emit (.fired index clause.heading)
    return some (← clause.transform session.input)
  | none =>
    match session.fallback with
    | some produce =>
      emit .fallback
      return some (← produce)
    | none =>
      emit .exhausted
      return none

/-- What is reported when an evaluation has no result. -/
def nonExhaustive (session : Session m ι α) : NonExhaustive :=
  ⟨(Inspectable.content session.input).kind, session.size⟩

/-- An evaluation for which it is an error to have no result. -/
def tryEvaluate (session : Session m ι α) : m (Except NonExhaustive α) := do
  match ← session.evaluate with
  | some result => return .ok result
  | none => return .error session.nonExhaustive

/-- An evaluation with a substitute for a missing result. -/
def evaluateOr (session : Session m ι α) (substitute : α) : m α := do
  return (← session.evaluate).getD substitute

/-- An evaluation with a substitute that is made only when the result is missing. -/
def evaluateOrElse (session : Session m ι α) (substitute : m α) : m α := do
  match ← session.evaluate with
  | some result => return result
  | none => substitute

end Session

namespace Session

variable {m : Type → Type} {ι δ α : Type}

/-- Declares a clause whose transform takes the input as typed data. The input is read only when
the clause fires, and an error in reading it is the result. -/
def acceptAs [Monad m] [Inspectable ι] [Decode δ]
    (session : Session m ι (Except ConversionError α)) (pattern : Pattern)
    (transform : δ → m α) : Session m ι (Except ConversionError α) :=
  session.accept pattern fun input => do
    match (Inspectable.content input).toData with
    | .ok data => return .ok (← transform data)
    | .error error => return .error error

end Session

/-- What can be seen of a session from outside. -/
structure Overview where
  value : Value
  size : Nat
  clauses : List Heading
  hasFallback : Bool

/-- The structural view of a session. -/
def Overview.debugText (overview : Overview) : String :=
  "Match \x7b value: " ++ overview.value.debugText
    ++ ", clauses: [" ++ ", ".intercalate (overview.clauses.map Heading.debugText)
    ++ "], has_fallback: " ++ toString overview.hasFallback ++ " \x7d"

def Session.overview {m : Type → Type} {ι α : Type} [Inspectable ι] (session : Session m ι α) :
    Overview :=
  ⟨Inspectable.content session.input, session.size, session.headings, session.hasFallback⟩

end Conform
