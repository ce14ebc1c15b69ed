import Conform.Session
import Conform.Shared

/-!
The effects of scripted closures: they make values, count their calls, leave a log, are observed,
and may give up.
-/

namespace Conform.Script

/-- What scripted closures work on. -/
structure World where
  nextStamp : Nat := 0
  /-- How often each counting closure has been called. -/
  counters : Array Nat := #[]
  /-- Labels of the closures that were called, the latest first. -/
  calls : List String := []
  /-- What the observer has recorded, the latest first. -/
  events : List Event := []
  /-- The level up to which the observer takes note; absent when there is no observer. -/
  observer : Option Level := none

/-- A closure that gave up with a text. -/
structure Abort where
  text : String
  deriving DecidableEq, Repr

/-- The making of closures. It fails when a name stands for nothing. -/
abbrev Setup := OptionT (StateM World)

/-- Calls of closures. What a call did before it gave up stays done. -/
abbrev Run := ExceptT Abort (StateM World)

instance : Observed Run where
  enabled level := return (← get).observer.any fun observer => observer.includes level
  record event := modify fun world => { world with events := event :: world.events }

/-- Makes a value in the world. -/
def mint {m : Type → Type} [Monad m] [MonadStateOf World m] (make : Mint Shared) : m Shared :=
  modifyGet fun world =>
    let (value, nextStamp) := make.run world.nextStamp
    (value, { world with nextStamp })

/-- A new counter that stands at zero. -/
def newCounter : Setup Nat :=
  modifyGet fun world =>
    (world.counters.size, { world with counters := world.counters.push 0 })

/-- Advances a counter and gives its former count. -/
def tick (counter : Nat) : Run Nat :=
  modifyGet fun world =>
    (world.counters.getD counter 0,
      { world with counters := world.counters.modify counter (· + 1) })

/-- Logs that a closure is called. -/
def called (label : String) : Run Unit :=
  modify fun world => { world with calls := label :: world.calls }

end Conform.Script
