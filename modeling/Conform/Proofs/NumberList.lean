import Conform.Proofs.Acceptance
import Conform.Proofs.Firing
import Conform.Proofs.TypedData

/-!
Lists of numbers. The pattern for them, the document of a value and the reading of doubles each have
a notion of number of their own. They agree on every list without an infinity.
-/

namespace Conform

/-- Whether a number is one of the two infinities. -/
def Binary64.isInfinite (x : Binary64) : Bool :=
  x.rank == infinityRank

theorem Binary64.isFinite_iff {x : Binary64} :
    x.isFinite = true ↔ x.isNaN = false ∧ x.isInfinite = false := by
  simp only [isFinite, isNaN, isInfinite, decide_eq_true_eq, decide_eq_false_iff_not,
    beq_eq_false_iff_ne]
  omega

namespace Value

/-- The list of these numbers. -/
def ofNumbers (numbers : List Binary64) : Value :=
  .list (numbers.map number)

/-- The pattern for lists of numbers lets infinities through, but not what is no number. -/
theorem accepts_numbers_iff {value : Value} :
    (Pattern.sequence .anyNumber).accepts value = true ↔
      ∃ numbers, value = ofNumbers numbers ∧ ∀ x ∈ numbers, x.isNaN = false := by
  rw [Pattern.accepts_sequence_iff]
  constructor
  · rintro ⟨items, rfl, accepted⟩
    induction items with
    | nil => exact ⟨[], rfl, by simp⟩
    | cons item items ih =>
      obtain ⟨own, others⟩ := List.forall_mem_cons.mp accepted
      obtain ⟨x, rfl, proper⟩ := Pattern.accepts_anyNumber_iff.mp own
      obtain ⟨numbers, same, all⟩ := ih others
      obtain rfl := Value.list.inj same
      exact ⟨x :: numbers, rfl, List.forall_mem_cons.mpr ⟨proper, all⟩⟩
  · rintro ⟨numbers, rfl, proper⟩
    refine ⟨_, rfl, List.forall_mem_map.mpr fun x member => ?_⟩
    exact Pattern.accepts_anyNumber_iff.mpr ⟨x, rfl, proper x member⟩

/-- The numbers are read back as they are, unless one of them is not finite. -/
theorem toData_ofNumbers_faithful (numbers : List Binary64) :
    Faithful numbers (∀ x ∈ numbers, x.isFinite = true) (decode (ofNumbers numbers).toJson) := by
  rw [ofNumbers, toJson_list, List.map_map]
  exact Decode.items_faithful Decode.ofBinary64_faithful numbers

end Value

namespace Session

variable {m : Type → Type} {ι α : Type} [Monad m] [LawfulMonad m] [Observed m] [Inspectable ι]

/-- A session of one clause without a guard: the clause fires when its pattern accepts the input,
and else there is no result. -/
theorem evaluate_new_accept (input : ι) (pattern : Pattern) (transform : ι → m α) :
    ((new input).accept pattern transform).evaluate = (do
      emit (.evaluation 1 (Inspectable.content input).kind)
      if pattern.accepts (Inspectable.content input) then
        emit (.fired 0 ⟨pattern, .affirmative, false⟩)
        return some (← transform input)
      else
        emit (.skipped 0 .affirmative false (pattern.explain (Inspectable.content input)))
        emit .exhausted
        return none) := by
  have selected : select input 0 [(⟨pattern, .affirmative, none, transform⟩ : Clause m ι α)] = (do
      if pattern.accepts (Inspectable.content input) then
        return some (0, ⟨pattern, .affirmative, none, transform⟩)
      else
        emit (.skipped 0 .affirmative false (pattern.explain (Inspectable.content input)))
        return none) := by
    rw [select_cons]
    refine (pure_bind _ _).trans ?_
    simp only [Clause.fires, Clause.passedOver, Clause.skipped]
    cases pattern.accepts (Inspectable.content input) <;> rfl
  refine congrArg (emit _ >>= ·) (funext fun _ => ?_)
  change select input 0 [⟨pattern, .affirmative, none, transform⟩] >>= _ = _
  rw [selected]
  cases pattern.accepts (Inspectable.content input) with
  | true => exact pure_bind _ _
  | false => exact (bind_assoc _ _ _).trans (congrArg (_ >>= ·) (funext fun _ => pure_bind _ _))

/-- A session with one clause, which takes lists of numbers and reads them as doubles. -/
def readingNumbers (input : ι) (transform : List Binary64 → m α) :
    Session m ι (Except ConversionError α) :=
  (new input).acceptAs (.sequence .anyNumber) transform

/-- What an input that holds these numbers is read as, and what becomes of it in the session. -/
structure NumbersRead (input : ι) (transform : List Binary64 → m α) (numbers : List Binary64) :
    Prop where
  content_eq : Inspectable.content input = .ofNumbers numbers
  /-- The numbers come back in order and bit for bit, if they come back at all. -/
  read_iff : ∀ data : List Binary64, (Inspectable.content input).toData = .ok data ↔
    data = numbers ∧ ∀ x ∈ numbers, x.isInfinite = false
  refused_iff : (∃ error,
    ((Inspectable.content input).toData : Except ConversionError (List Binary64)) =
      .error (.deserialize error)) ↔ ∃ x ∈ numbers, x.isInfinite = true
  evaluate_of_finite : (∀ x ∈ numbers, x.isInfinite = false) →
    (readingNumbers input transform).evaluate = (do
      emit (.evaluation 1 .list)
      emit (.fired 0 ⟨.sequence .anyNumber, .affirmative, false⟩)
      return some (.ok (← transform numbers)))
  evaluate_of_infinite : (∃ x ∈ numbers, x.isInfinite = true) → ∃ error,
    ((Inspectable.content input).toData : Except ConversionError (List Binary64)) =
      .error (.deserialize error) ∧
    (readingNumbers input transform).evaluate = (do
      emit (.evaluation 1 .list)
      emit (.fired 0 ⟨.sequence .anyNumber, .affirmative, false⟩)
      return some (.error (.deserialize error)))

theorem numbersRead_of_content {input : ι} {numbers : List Binary64}
    (transform : List Binary64 → m α)
    (content : Inspectable.content input = .ofNumbers numbers)
    (proper : ∀ x ∈ numbers, x.isNaN = false) : NumbersRead input transform numbers := by
  have faithful := Value.toData_ofNumbers_faithful numbers
  have finite_iff : (∀ x ∈ numbers, x.isFinite = true) ↔ ∀ x ∈ numbers, x.isInfinite = false :=
    forall₂_congr fun x member => Binary64.isFinite_iff.trans (and_iff_right (proper x member))
  have infinite_iff : (¬ ∀ x ∈ numbers, x.isFinite = true) ↔
      ∃ x ∈ numbers, x.isInfinite = true := by
    rw [finite_iff]
    simp
  have accepted : (Pattern.sequence .anyNumber).accepts (Inspectable.content input) = true :=
    Value.accepts_numbers_iff.mpr ⟨numbers, content, proper⟩
  have kind : (Inspectable.content input).kind = .list := by
    rw [content]
    rfl
  have read_iff : ∀ data : List Binary64, (Inspectable.content input).toData = .ok data ↔
      data = numbers ∧ ∀ x ∈ numbers, x.isInfinite = false := by
    intro data
    rw [content, ← finite_iff]
    exact faithful.mapError_eq_ok_iff
  have refused_iff : (∃ error,
      ((Inspectable.content input).toData : Except ConversionError (List Binary64)) =
        .error (.deserialize error)) ↔ ∃ x ∈ numbers, x.isInfinite = true := by
    rw [content, ← infinite_iff]
    exact faithful.mapError_eq_error_iff
  refine ⟨content, read_iff, refused_iff, ?_, ?_⟩
  · intro finite
    have read := (read_iff numbers).mpr ⟨rfl, finite⟩
    rw [readingNumbers, acceptAs, evaluate_new_accept, if_pos accepted, kind]
    simp only [read, bind_assoc, pure_bind]
  · intro infinite
    obtain ⟨error, failed⟩ := refused_iff.mpr infinite
    refine ⟨error, failed, ?_⟩
    rw [readingNumbers, acceptAs, evaluate_new_accept, if_pos accepted, kind]
    simp only [failed, pure_bind]

/-- Lists of numbers are narrowed soundly but for infinities. A list that the pattern accepts is
read as the numbers in it, and refused when one of them is infinite; what it does not accept has no
result. -/
theorem numbers_read_unless_infinite (input : ι) (transform : List Binary64 → m α) :
    ((Pattern.sequence .anyNumber).accepts (Inspectable.content input) = true →
      ∃ numbers, NumbersRead input transform numbers) ∧
    ((Pattern.sequence .anyNumber).accepts (Inspectable.content input) = false →
      (readingNumbers input transform).evaluate = (do
        emit (.evaluation 1 (Inspectable.content input).kind)
        emit (.skipped 0 .affirmative false
          ((Pattern.sequence .anyNumber).explain (Inspectable.content input)))
        emit .exhausted
        return none)) := by
  constructor
  · intro accepted
    obtain ⟨numbers, content, proper⟩ := Value.accepts_numbers_iff.mp accepted
    exact ⟨numbers, numbersRead_of_content transform content proper⟩
  · intro refused
    rw [readingNumbers, acceptAs, evaluate_new_accept, if_neg (by simp [refused])]

/-- Negative zero, a whole number and a fraction are read; an infinity is refused; a list with what
is no number has no result. -/
theorem numbers_read_unless_infinite_signs :
    (readingNumbers (m := Id) (Value.ofNumbers [.negativeZero, .ofInt (-3),
        .ofBits 0x3fe0000000000000]) id).evaluate =
      some (.ok [.negativeZero, .ofInt (-3), .ofBits 0x3fe0000000000000]) ∧
    (∃ error, (readingNumbers (m := Id) (Value.ofNumbers [.zero, .infinity]) id).evaluate =
      some (.error (.deserialize error))) ∧
    (readingNumbers (m := Id) (Value.ofNumbers [.zero, .nan]) id).evaluate = none := by
  refine ⟨?_, ?_, ?_⟩
  · obtain ⟨numbers, read⟩ := (numbers_read_unless_infinite (m := Id) (Value.ofNumbers
      [.negativeZero, .ofInt (-3), .ofBits 0x3fe0000000000000]) id).1 (by decide)
    obtain ⟨rfl, finite⟩ := (read.read_iff [.negativeZero, .ofInt (-3),
      .ofBits 0x3fe0000000000000]).mp rfl
    exact read.evaluate_of_finite finite
  · obtain ⟨numbers, read⟩ := (numbers_read_unless_infinite (m := Id)
      (Value.ofNumbers [.zero, .infinity]) id).1 (by decide)
    obtain ⟨error, _, evaluated⟩ := read.evaluate_of_infinite (read.refused_iff.mp ⟨_, rfl⟩)
    exact ⟨error, evaluated⟩
  · exact (numbers_read_unless_infinite (m := Id) (Value.ofNumbers [.zero, .nan]) id).2 (by decide)

end Session

end Conform
