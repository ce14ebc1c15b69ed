import Conform.Session

/-!
Chains of declarations: the clauses of a session stand in the order in which they were declared,
and its fallback is the one declared last, however the two kinds of declaration alternate.
-/

namespace Conform

/-- A call that continues a session. -/
inductive Declaration (m : Type → Type) (ι α : Type) where
  | accept (pattern : Pattern) (transform : ι → m α)
  | acceptIf (pattern : Pattern) (guard : ι → m Bool) (transform : ι → m α)
  | refuse (pattern : Pattern) (transform : ι → m α)
  | refuseIf (pattern : Pattern) (guard : ι → m Bool) (transform : ι → m α)
  | otherwise (produce : m α)

variable {m : Type → Type} {ι α : Type}

namespace Declaration

/-- The clause that is declared, if it is one. -/
def clause? : Declaration m ι α → Option (Clause m ι α)
  | .accept pattern transform => some ⟨pattern, .affirmative, none, transform⟩
  | .acceptIf pattern guard transform => some ⟨pattern, .affirmative, some guard, transform⟩
  | .refuse pattern transform => some ⟨pattern, .negated, none, transform⟩
  | .refuseIf pattern guard transform => some ⟨pattern, .negated, some guard, transform⟩
  | .otherwise _ => none

/-- The fallback that is declared, if it is one. -/
def fallback? : Declaration m ι α → Option (m α)
  | .otherwise produce => some produce
  | _ => none

end Declaration

namespace Session

def extend (session : Session m ι α) : Declaration m ι α → Session m ι α
  | .accept pattern transform => session.accept pattern transform
  | .acceptIf pattern guard transform => session.acceptIf pattern guard transform
  | .refuse pattern transform => session.refuse pattern transform
  | .refuseIf pattern guard transform => session.refuseIf pattern guard transform
  | .otherwise produce => session.otherwise produce

/-- The session of a chain of declarations that begins with a new one. -/
def build (input : ι) (declarations : List (Declaration m ι α)) : Session m ι α :=
  declarations.foldl extend (new input)

variable (session : Session m ι α) (declaration : Declaration m ι α) (input : ι)
  (declarations : List (Declaration m ι α))

@[simp]
theorem input_extend : (session.extend declaration).input = session.input := by
  cases declaration <;> rfl

@[simp]
theorem clauses_extend :
    (session.extend declaration).clauses.toList =
      session.clauses.toList ++ declaration.clause?.toList := by
  cases declaration with
  | accept | acceptIf | refuse | refuseIf => exact GrowingList.toList_push _ _
  | otherwise produce => exact (List.append_nil _).symm

@[simp]
theorem fallback_extend :
    (session.extend declaration).fallback = declaration.fallback?.or session.fallback := by
  cases declaration <;> rfl

theorem input_foldl_extend : (declarations.foldl extend session).input = session.input := by
  induction declarations generalizing session with
  | nil => rfl
  | cons declaration declarations ih => rw [List.foldl_cons, ih, input_extend]

theorem clauses_foldl_extend :
    (declarations.foldl extend session).clauses.toList =
      session.clauses.toList ++ declarations.filterMap Declaration.clause? := by
  induction declarations generalizing session with
  | nil => exact (List.append_nil _).symm
  | cons declaration declarations ih =>
    rw [List.foldl_cons, ih, clauses_extend, List.append_assoc]
    cases declared : declaration.clause? <;> simp [declared]

theorem fallback_foldl_extend :
    (declarations.foldl extend session).fallback =
      (declarations.filterMap Declaration.fallback?).getLast?.or session.fallback := by
  induction declarations generalizing session with
  | nil => rfl
  | cons declaration declarations ih =>
    rw [List.foldl_cons, ih, fallback_extend]
    cases declared : declaration.fallback? with
    | none => simp [declared]
    | some produce =>
      cases later : (declarations.filterMap Declaration.fallback?).getLast? <;>
        simp [declared, later, List.getLast?_cons]

theorem input_build : (build input declarations).input = input :=
  input_foldl_extend (new input) declarations

theorem clauses_build :
    (build input declarations).clauses.toList = declarations.filterMap Declaration.clause? :=
  clauses_foldl_extend (new input) declarations

theorem fallback_build :
    (build input declarations).fallback =
      (declarations.filterMap Declaration.fallback?).getLast? := by
  rw [build, fallback_foldl_extend, new, Option.or_none]

theorem size_build :
    (build input declarations).size = (declarations.filterMap Declaration.clause?).length := by
  rw [size, GrowingList.size_toList, clauses_build]

end Session

end Conform
