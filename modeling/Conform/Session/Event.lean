import Conform.Explanation
import Conform.Session.Clause

/-!
Events: what an evaluation lets an observer know while it runs.
-/

namespace Conform

/-- Levels of detail, from the coarsest to the finest. -/
inductive Level where
  | error
  | warn
  | info
  | debug
  | trace
  deriving DecidableEq, Repr

namespace Level

def rank : Level → Nat
  | .error => 0
  | .warn => 1
  | .info => 2
  | .debug => 3
  | .trace => 4

def name : Level → String
  | .error => "ERROR"
  | .warn => "WARN"
  | .info => "INFO"
  | .debug => "DEBUG"
  | .trace => "TRACE"

/-- Whether an observer of one level takes note of another. -/
def includes (observer level : Level) : Bool :=
  level.rank ≤ observer.rank

end Level

inductive Event where
  /-- An evaluation of so many clauses begins on a value of a kind. -/
  | evaluation (clauses : Nat) (kind : Kind)
  | guardRejected (index : Nat)
  /-- A clause does not fire although its guard passes: whether its pattern accepts the value, and
  the mismatch if there is one. -/
  | skipped (index : Nat) (polarity : Polarity) (accepted : Bool) (mismatch : Option Mismatch)
  | fired (index : Nat) (clause : Heading)
  /-- No clause fires and the fallback is used. -/
  | fallback
  /-- No clause fires and there is no fallback. -/
  | exhausted

def Event.level : Event → Level
  | .guardRejected _ => .trace
  | .skipped _ _ _ _ => .trace
  | .evaluation _ _ => .debug
  | .fired _ _ => .debug
  | .fallback => .debug
  | .exhausted => .debug

/-- What an event says, as named texts. Of a clause that is skipped it says the mismatch, or else
the verdict. -/
def Event.fields : Event → List (String × String)
  | .evaluation clauses kind => [("clauses", toString clauses), ("value", kind.name)]
  | .guardRejected index =>
    [("message", "guard rejected clause"), ("index", toString index)]
  | .skipped index polarity accepted mismatch =>
    [("message", "clause skipped"), ("index", toString index), ("polarity", polarity.toText),
      match mismatch with
      | some mismatch => ("mismatch", mismatch.toText)
      | none => ("matched", toString accepted)]
  | .fired index clause =>
    [("message", "clause fired"), ("index", toString index), ("clause", clause.toText)]
  | .fallback => [("message", "no clause fired, using fallback")]
  | .exhausted => [("message", "no clause fired and no fallback is set")]

/-- What there is to tell of a clause that is skipped. -/
def Clause.skipped {m : Type → Type} {ι α : Type} [Inspectable ι] (clause : Clause m ι α)
    (input : ι) (index : Nat) : Event :=
  .skipped index clause.polarity (clause.pattern.accepts (Inspectable.content input))
    (clause.pattern.explain (Inspectable.content input))

/-- Effects under which evaluations can be observed. -/
class Observed (m : Type → Type) where
  /-- Whether the observer takes note of a level now. -/
  enabled : Level → m Bool
  record : Event → m Unit

/-- Nobody observes what has no effects. -/
instance : Observed Id where
  enabled _ := false
  record _ := ()

/-- Records an event if its level is observed. -/
def emit {m : Type → Type} [Monad m] [Observed m] (event : Event) : m Unit := do
  if ← Observed.enabled event.level then Observed.record event

end Conform
