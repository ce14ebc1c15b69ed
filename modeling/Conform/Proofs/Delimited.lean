/-!
Words that can be told from what follows them: because a stop follows that does not occur in them,
or because they are numerals with a bracket behind.
-/

namespace Conform.Text

variable {word other rest others : List Char} {stop : Char → Bool}

/-- A text ends or goes on with a stop. -/
def StopsAt (stop : Char → Bool) (text : List Char) : Prop :=
  ∀ c, text.head? = some c → stop c = true

theorem stopsAt_nil : StopsAt stop [] :=
  nofun

theorem stopsAt_cons_iff {c : Char} : StopsAt stop (c :: rest) ↔ stop c = true := by
  simp [StopsAt]

/-- Up to the first stop a text is read in one way only. -/
theorem append_inj_of_stopsAt (free : ∀ c ∈ word, stop c = false)
    (freeToo : ∀ c ∈ other, stop c = false) (stops : StopsAt stop rest)
    (stopsToo : StopsAt stop others) (same : word ++ rest = other ++ others) :
    word = other ∧ rest = others := by
  induction word generalizing other with
  | nil =>
    cases other with
    | nil => exact ⟨rfl, same⟩
    | cons d other =>
      have met : stop d = true := stops d (congrArg List.head? same)
      rw [freeToo d List.mem_cons_self] at met
      cases met
  | cons c word ih =>
    cases other with
    | nil =>
      have met : stop c = true := stopsToo c (congrArg List.head? same.symm)
      rw [free c List.mem_cons_self] at met
      cases met
    | cons d other =>
      obtain ⟨rfl, behind⟩ := List.cons.inj same
      obtain ⟨rfl, rfl⟩ := ih (fun c later => free c (List.mem_cons_of_mem _ later))
        (fun c later => freeToo c (List.mem_cons_of_mem _ later)) behind
      exact ⟨rfl, rfl⟩

theorem append_inj_of_not_mem {c : Char} (free : c ∉ word) (freeToo : c ∉ other)
    (same : word ++ c :: rest = other ++ c :: others) : word = other ∧ rest = others := by
  have stops : ∀ {text : List Char}, StopsAt (· == c) (c :: text) :=
    stopsAt_cons_iff.mpr (beq_self_eq_true c)
  have absent : ∀ {text : List Char}, c ∉ text → ∀ d ∈ text, (d == c) = false := by
    intro text free d member
    rw [beq_eq_false_iff_ne]
    rintro rfl
    exact free member
  obtain ⟨words, behind⟩ := append_inj_of_stopsAt (absent free) (absent freeToo) stops stops same
  exact ⟨words, (List.cons.inj behind).2⟩

section

variable {base m n : Nat}

theorem exists_digitChar_of_mem_toDigits (big : 1 < base) {c : Char}
    (member : c ∈ Nat.toDigits base n) : ∃ digit, c = Nat.digitChar digit := by
  induction n using Nat.base_induction base big with
  | single n small =>
    rw [Nat.toDigits_of_lt_base small] at member
    exact ⟨n, List.mem_singleton.mp member⟩
  | digit n digit small positive ih =>
    rw [← Nat.toDigits_append_toDigits big positive small] at member
    rcases List.mem_append.mp member with early | last
    · exact ih early
    · rw [Nat.toDigits_of_lt_base small] at last
      exact ⟨digit, List.mem_singleton.mp last⟩

/-- Numerals of one base are the same for the same number only. -/
theorem toDigits_injective (big : 1 < base) (small : base ≤ 16)
    (same : Nat.toDigits base m = Nat.toDigits base n) : m = n := by
  have digits : ∀ m < 16, ∀ n < 16, Nat.digitChar m = Nat.digitChar n → m = n := by decide
  induction m using Nat.strongRecOn generalizing n with
  | ind m ih =>
    rw [Nat.toDigits_eq_if big, Nat.toDigits_eq_if (n := n) big] at same
    split at same
    · rename_i single
      split at same
      · rename_i singleToo
        exact digits m (by omega) n (by omega) (List.cons.inj same).1
      · have length := congrArg List.length same
        simp at length
    · rename_i several
      split at same
      · have length := congrArg List.length same
        simp at length
      · have least : base ≤ m := by omega
        obtain ⟨front, last⟩ := List.append_inj' same rfl
        have quotient : m / base = n / base :=
          ih (m / base) (Nat.div_lt_self (by omega) big) front
        have remainder : m % base = n % base :=
          digits _ (Nat.lt_of_lt_of_le (Nat.mod_lt _ (by omega)) small) _
            (Nat.lt_of_lt_of_le (Nat.mod_lt _ (by omega)) small) (List.cons.inj last).1
        rw [← Nat.div_add_mod m base, quotient, remainder, Nat.div_add_mod]

/-- A numeral and a character behind it that is no digit show where the numeral ends. -/
theorem toDigits_append_inj (big : 1 < base) (small : base ≤ 16) {c : Char}
    (apart : ∀ digit, Nat.digitChar digit ≠ c)
    (same : Nat.toDigits base m ++ c :: rest = Nat.toDigits base n ++ c :: others) :
    m = n ∧ rest = others := by
  have free : ∀ n, c ∉ Nat.toDigits base n := by
    intro n member
    obtain ⟨digit, same⟩ := exists_digitChar_of_mem_toDigits big member
    exact apart digit same.symm
  obtain ⟨numerals, behind⟩ := append_inj_of_not_mem (free m) (free n) same
  exact ⟨toDigits_injective big small numerals, behind⟩

end

end Conform.Text
