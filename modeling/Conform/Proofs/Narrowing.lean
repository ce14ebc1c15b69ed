import Conform.Proofs.Trace

/-!
Narrowing: a pattern that is narrower than another by its form accepts no more values. A clause that
comes after an unguarded clause with a wider pattern is never reached.
-/

namespace Conform

namespace Pattern

/-- The least order on patterns that goes by their form. What nothing satisfies is narrower than
everything, a literal than the marker of its kind, and an object than another when each declaration
of the other has a narrower counterpart under the same name. -/
inductive Narrower : Pattern → Pattern → Prop where
  | refl {pattern : Pattern} : Narrower pattern pattern
  | undefined {pattern : Pattern} : Narrower .undefined pattern
  | notANumber {x : Binary64} {pattern : Pattern} (nan : x.isNaN = true) :
      Narrower (.number x) pattern
  | string {text : String} : Narrower (.string text) .anyString
  | boolean {value : Bool} : Narrower (.boolean value) .anyBoolean
  | number {x : Binary64} (proper : x.isNaN = false) : Narrower (.number x) .anyNumber
  | sequence {element other : Pattern} (narrower : Narrower element other) :
      Narrower (.sequence element) (.sequence other)
  | object {fields others : List (String × Pattern)} (counterpart : String → Pattern → Pattern)
      (declared : ∀ name other, (name, other) ∈ others → (name, counterpart name other) ∈ fields)
      (narrower : ∀ name other, (name, other) ∈ others → Narrower (counterpart name other) other) :
      Narrower (.object fields) (.object others)

variable {pattern other : Pattern} {value : Value}

theorem Narrower.of_fields {fields others : List (String × Pattern)}
    (each : ∀ name other, (name, other) ∈ others →
      ∃ field, (name, field) ∈ fields ∧ Narrower field other) :
    Narrower (.object fields) (.object others) := by
  classical
  refine .object (fun name other => if member : (name, other) ∈ others then
    (each name other member).choose else other) ?_ ?_
  · intro name other member
    rw [dif_pos member]
    exact (each name other member).choose_spec.1
  · intro name other member
    rw [dif_pos member]
    exact (each name other member).choose_spec.2

theorem accepts_literal_iff {expected : Scalar} :
    (literal expected).accepts value = true ↔
      ∃ found, value = .scalar found ∧ expected.equal found = true := by
  cases value <;> simp [Pattern.accepts, Scalar.equalsValue]

theorem accepts_number_iff {x : Binary64} :
    (number x).accepts value = true ↔ ∃ y, value = .number y ∧ x.equal y = true := by
  rw [number, accepts_literal_iff]
  constructor
  · rintro ⟨found, rfl, same⟩
    cases found with
    | number y => exact ⟨y, rfl, same⟩
    | null | boolean | string => cases same
  · rintro ⟨y, rfl, same⟩
    exact ⟨.number y, rfl, same⟩

/-- A narrower pattern accepts no more. -/
theorem Narrower.accepts (narrower : Narrower pattern other)
    (accepted : pattern.accepts value = true) : other.accepts value = true := by
  induction narrower generalizing value with
  | refl => exact accepted
  | undefined => cases accepted
  | notANumber nan =>
    obtain ⟨y, rfl, same⟩ := accepts_number_iff.mp accepted
    obtain ⟨proper, _⟩ := (Binary64.equal_iff _ y).mp same
    exact absurd nan (Bool.not_eq_true _ ▸ proper)
  | string =>
    obtain ⟨found, rfl, same⟩ := accepts_literal_iff.mp accepted
    cases found with
    | string => rfl
    | null | boolean | number => cases same
  | boolean =>
    obtain ⟨found, rfl, same⟩ := accepts_literal_iff.mp accepted
    cases found with
    | boolean => rfl
    | null | number | string => cases same
  | number proper =>
    obtain ⟨y, rfl, same⟩ := accepts_number_iff.mp accepted
    obtain ⟨_, whole, _⟩ := (Binary64.equal_iff _ y).mp same
    simp [Pattern.accepts, Value.number, Value.number?, whole]
  | sequence narrower ih =>
    cases value with
    | list items =>
      rw [accepts_list_iff] at accepted ⊢
      intro item member
      exact ih (accepted item member)
    | scalar | record => cases accepted
  | object counterpart declared narrower ih =>
    rw [accepts_object_iff] at accepted ⊢
    refine ⟨accepted.1, fun name other member => ?_⟩
    obtain ⟨_, part, present, inner⟩ := accepted.2 name _ (declared name other member)
    have accepted := ih name other member inner
    refine ⟨isUndefined_eq_false_iff.mpr ?_, part, present, accepted⟩
    rintro rfl
    cases accepted

end Pattern

variable {m : Type → Type} {ι α : Type}

section

variable [Inspectable ι] {input : ι} {clause : Clause Id ι α} {before after : List (Clause Id ι α)}
  {fallback : Option α}

/-- A clause is never reached when it applies only where an earlier one does. -/
theorem resolution_append_cons
    (shadowed : clause.Applies input → ∃ earlier ∈ before, earlier.Applies input) :
    resolution input (before ++ clause :: after) fallback =
      resolution input (before ++ after) fallback := by
  have same : (before ++ clause :: after).find? (fun clause => clause.Applies input) =
      (before ++ after).find? fun clause => clause.Applies input := by
    rw [List.find?_append, List.find?_append]
    cases found : before.find? fun clause => clause.Applies input with
    | some earlier => rfl
    | none =>
      have silent : ¬ clause.Applies input := by
        intro applies
        obtain ⟨earlier, member, own⟩ := shadowed applies
        simpa [own] using List.find?_eq_none.mp found earlier member
      rw [List.find?_cons_of_neg (by simpa using silent)]
  rw [resolution, resolution, same]

theorem resolution_eraseIdx {declarations : List (Declaration Id ι α)} {position : Nat}
    {removed : Declaration Id ι α} (there : declarations[position]? = some removed)
    (declared : removed.clause? = some clause)
    (shadowed : clause.Applies input →
      ∃ earlier ∈ (declarations.take position).filterMap Declaration.clause?,
        earlier.Applies input) :
    resolution input ((declarations.eraseIdx position).filterMap Declaration.clause?)
        ((declarations.eraseIdx position).filterMap Declaration.fallback?).getLast? =
      resolution input (declarations.filterMap Declaration.clause?)
        (declarations.filterMap Declaration.fallback?).getLast? := by
  have undeclared : removed.fallback? = none := by
    cases removed with
    | otherwise => cases declared
    | accept | acceptIf | refuse | refuseIf => rfl
  obtain ⟨inRange, rfl⟩ := List.getElem?_eq_some_iff.mp there
  have split : declarations = declarations.take position ++
      declarations[position] :: declarations.drop (position + 1) := by
    rw [List.getElem_cons_drop, List.take_append_drop]
  conv => rhs; rw [split]
  rw [List.eraseIdx_eq_take_drop_succ, List.filterMap_append, List.filterMap_append,
    List.filterMap_append, List.filterMap_append, List.filterMap_cons_some declared,
    List.filterMap_cons_none undeclared]
  exact (resolution_append_cons shadowed).symm

end

theorem forM_emit_of_unobserved [Monad m] [LawfulMonad m] [Observed m]
    (unobserved : ∀ level, (Observed.enabled level : m Bool) = pure false) (events : List Event) :
    events.forM emit = (pure () : m Unit) := by
  induction events with
  | nil => rfl
  | cons event events ih =>
    rw [List.forM_eq_forM, List.forM_cons, emit_of_unobserved unobserved, pure_bind,
      ← List.forM_eq_forM, ih]

section

variable [Monad m] [LawfulMonad m] [Observed m] [Inspectable ι]

open Session in
/-- Narrowing is sound: a narrower pattern accepts no more, and so an affirmative clause behind an
unguarded one with a wider pattern can be deleted. What is done stays the same, whatever the
transforms and the fallback do; only an observer hears of it. -/
theorem Pattern.narrower_sound {pattern other : Pattern} (narrower : Narrower pattern other) :
    (∀ value, pattern.accepts value = true → other.accepts value = true) ∧
      ∀ (input : ι) (declarations : List (Declaration Id ι (m α))) (earlier later : Nat)
        (transform own : ι → Id (m α)) (guard : Option (ι → Id Bool))
        (removed : Declaration Id ι (m α)),
        earlier < later → declarations[earlier]? = some (.accept other transform) →
        declarations[later]? = some removed →
        removed.clause? = some ⟨pattern, .affirmative, guard, own⟩ →
          (∃ (told toldWithout : List Event) (outcome : m (Option α)),
            (build input (declarations.map (.liftWith id))).evaluate =
              (told.forM emit >>= fun _ => outcome) ∧
            (build input ((declarations.eraseIdx later).map (.liftWith id))).evaluate =
              (toldWithout.forM emit >>= fun _ => outcome)) ∧
          ((∀ level, (Observed.enabled level : m Bool) = pure false) →
            (build input ((declarations.eraseIdx later).map (.liftWith id))).evaluate =
              (build input (declarations.map (.liftWith id))).evaluate) := by
  refine ⟨fun value accepted => narrower.accepts accepted, ?_⟩
  intro input declarations earlier later transform own guard removed before wide there declared
  have shadowed : (⟨pattern, .affirmative, guard, own⟩ : Clause Id ι (m α)).Applies input →
      ∃ first ∈ (declarations.take later).filterMap Declaration.clause?, first.Applies input := by
    rintro ⟨_, accepted⟩
    have accepted := narrower.accepts (accepted.mpr rfl)
    have member : .accept other transform ∈ declarations.take later := by
      rw [← List.getElem?_take_of_lt before] at wide
      exact List.mem_of_getElem? wide
    refine ⟨⟨other, .affirmative, none, transform⟩, ?_, nofun, iff_of_true accepted rfl⟩
    exact List.mem_filterMap.mpr ⟨_, member, rfl⟩
  have same := resolution_eraseIdx there declared shadowed
  have whole := evaluate_build_liftWith (m := m) id input declarations
  have without := evaluate_build_liftWith (m := m) id input (declarations.eraseIdx later)
  rw [same] at without
  refine ⟨⟨_, _, _, whole, without⟩, ?_⟩
  intro unobserved
  rw [whole, without, forM_emit_of_unobserved unobserved, forM_emit_of_unobserved unobserved]

end

/-- A list under object patterns, with a guarded clause that asks for more behind one that asks for
less. -/
theorem Pattern.narrower_sound_indexed :
    (object [("1", .string "x"), ("0", .ofInt 3)]).accepts (.list [.ofInt 3, .string "x"]) = true ∧
      (object [("0", .anyNumber)]).accepts (.list [.ofInt 3, .string "x"]) = true ∧
      (Session.build (Value.list [.ofInt 3, .string "x"]) (([.refuse (.object []) fun _ => 1,
          .accept (.object [("0", .anyNumber)]) fun _ => 2, .otherwise 3,
          .acceptIf (.object [("1", .string "x"), ("0", .ofInt 3)]) (fun _ => true) fun _ => 4] :
        List (Declaration Id Value (Id Nat))).map (.liftWith id))).evaluate =
        (Session.build (Value.list [.ofInt 3, .string "x"]) (([.refuse (.object []) fun _ => 1,
            .accept (.object [("0", .anyNumber)]) fun _ => 2, .otherwise 3] :
          List (Declaration Id Value (Id Nat))).map (.liftWith id))).evaluate := by
  have narrower : Narrower (.object [("1", .string "x"), ("0", .ofInt 3)])
      (.object [("0", .anyNumber)]) := by
    refine .of_fields ?_
    intro name other member
    obtain ⟨rfl, rfl⟩ := Prod.mk.inj (List.mem_singleton.mp member)
    exact ⟨.ofInt 3, by simp, .number (by decide)⟩
  obtain ⟨accepts, deleted⟩ := @narrower_sound Id Value Nat _ _ _ _ _ _ narrower
  obtain ⟨_, same⟩ := deleted (.list [.ofInt 3, .string "x"]) [.refuse (.object []) fun _ => 1,
    .accept (.object [("0", .anyNumber)]) fun _ => 2, .otherwise 3,
    .acceptIf (.object [("1", .string "x"), ("0", .ofInt 3)]) (fun _ => true) fun _ => 4] 1 3
    (fun _ => 2) (fun _ => 4) (some fun _ => true) _ (by decide) rfl rfl rfl
  have accepted : (object [("1", .string "x"), ("0", .ofInt 3)]).accepts
      (.list [.ofInt 3, .string "x"]) = true := by decide
  exact ⟨accepted, accepts _ accepted, (same fun _ => rfl).symm⟩

end Conform
