import Conform.Acceptance
import Conform.Pattern.Text

/-!
Clauses, the units of a match session, and the lists in which sessions keep them.
-/

namespace Conform

/-- Whether a clause fires on accepted values or on all others. -/
inductive Polarity where
  | affirmative
  | negated
  deriving DecidableEq, Repr

namespace Polarity

def fires : Polarity → Bool → Bool
  | .affirmative, accepted => accepted
  | .negated, accepted => !accepted

def toText : Polarity → String
  | .affirmative => "with"
  | .negated => "with not"

def debugText : Polarity → String
  | .affirmative => "Affirmative"
  | .negated => "Negated"

end Polarity

/-- What can be seen of a clause from outside. -/
structure Heading where
  pattern : Pattern
  polarity : Polarity
  guarded : Bool

namespace Heading

def toText (heading : Heading) : String :=
  heading.polarity.toText ++ " " ++ heading.pattern.toText
    ++ (if heading.guarded then " when .." else "")

def debugText (heading : Heading) : String :=
  "Clause \x7b pattern: " ++ heading.pattern.debugText
    ++ ", guarded: " ++ toString heading.guarded
    ++ ", polarity: " ++ heading.polarity.debugText ++ ", .. \x7d"

end Heading

/-- A pattern with a polarity, a guard that may be absent, and the transform whose result a firing
clause gives. Guards and transforms may have effects. -/
structure Clause (m : Type → Type) (ι α : Type) where
  pattern : Pattern
  polarity : Polarity
  guard : Option (ι → m Bool)
  transform : ι → m α

namespace Clause

variable {m : Type → Type} {ι α : Type}

def heading (clause : Clause m ι α) : Heading :=
  ⟨clause.pattern, clause.polarity, clause.guard.isSome⟩

/-- An absent guard always passes. -/
def passes [Monad m] (clause : Clause m ι α) (input : ι) : m Bool :=
  match clause.guard with
  | some guard => guard input
  | none => pure true

/-- Whether a clause whose guard has passed fires. -/
def fires [Inspectable ι] (clause : Clause m ι α) (input : ι) : Bool :=
  clause.polarity.fires (clause.pattern.accepts (Inspectable.content input))

end Clause

/-- A list that grows at its end. The last entry is at hand, so that lists with a common beginning
share it, and the number of entries is kept. -/
structure GrowingList (α : Type) where
  newestFirst : List α
  size : Nat
  size_eq : size = newestFirst.length

namespace GrowingList

variable {α : Type}

def empty : GrowingList α := ⟨[], 0, rfl⟩

instance : EmptyCollection (GrowingList α) := ⟨empty⟩

def push (list : GrowingList α) (entry : α) : GrowingList α where
  newestFirst := entry :: list.newestFirst
  size := list.size + 1
  size_eq := congrArg (· + 1) list.size_eq

/-- The entries in the order in which they were added. -/
def toList (list : GrowingList α) : List α :=
  list.newestFirst.reverse

@[simp]
theorem toList_empty : (empty : GrowingList α).toList = [] := rfl

@[simp]
theorem toList_push (list : GrowingList α) (entry : α) :
    (list.push entry).toList = list.toList ++ [entry] :=
  List.reverse_cons

theorem size_toList (list : GrowingList α) : list.size = list.toList.length := by
  rw [list.size_eq, toList, List.length_reverse]

end GrowingList

end Conform
