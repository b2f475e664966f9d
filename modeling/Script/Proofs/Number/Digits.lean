import Script.Number.Numeral

/-!
# Digit strings and their values

A natural number is the value of its own digits (`natural_toDigits`), and a digit string that does
not start with a zero consists of the digits of its value (`toDigits_natural`).
-/

namespace Script

namespace Numeral

theorem toNat_of_isDigit {c : Char} (digit : isDigit c = true) :
    0x30 ≤ c.toNat ∧ c.toNat ≤ 0x39 := by
  simp only [isDigit, Bool.and_eq_true, decide_eq_true_eq] at digit
  exact ⟨UInt32.le_iff_toNat_le.mp digit.1, UInt32.le_iff_toNat_le.mp digit.2⟩

theorem digitValue_eq (c : Char) : digitValue c = c.toNat - 0x30 := rfl

theorem digitValue_lt {c : Char} (digit : isDigit c = true) : digitValue c < 10 := by
  have range := toNat_of_isDigit digit
  rw [digitValue_eq]
  omega

theorem digitChar_digitValue {c : Char} (digit : isDigit c = true) :
    (digitValue c).digitChar = c := by
  have range := toNat_of_isDigit digit
  refine Char.toNat_inj.mp ?_
  rw [Nat.toNat_digitChar_of_lt_ten (digitValue_lt digit), digitValue_eq]
  omega

/-! ## The value of digits -/

theorem natural_eq_ofDigitChars (digits : List Char) :
    natural digits = Nat.ofDigitChars 10 digits 0 := rfl

theorem natural_append (first second : List Char) :
    natural (first ++ second) = natural first * powerOfTen second.length + natural second := by
  simp only [natural_eq_ofDigitChars]
  rw [Nat.ofDigitChars_append, Nat.ofDigitChars_eq_ofDigitChars_zero, Nat.mul_comm]
  rfl

theorem natural_zeros (n : Nat) : natural (List.replicate n '0') = 0 := by
  rw [natural_eq_ofDigitChars, Nat.ofDigitChars_replicate_zero, Nat.mul_zero]

theorem natural_toDigits (n : Nat) : natural (Nat.toDigits 10 n) = n :=
  Nat.ofDigitChars_ten_toDigits

theorem isDigit_of_mem_toDigits {n : Nat} {c : Char} (member : c ∈ Nat.toDigits 10 n) :
    isDigit c = true :=
  Nat.isDigit_of_mem_toDigits (by decide) (by decide) member

/-! ## The digits of a value -/

/-- Digits behind those of a positive number are the digits of the number so far. -/
theorem toDigits_append {digits : List Char} (all : ∀ c ∈ digits, isDigit c = true) :
    ∀ {n : Nat}, 0 < n →
      Nat.toDigits 10 n ++ digits = Nat.toDigits 10 (Nat.ofDigitChars 10 digits n) := by
  induction digits with
  | nil =>
    intro n _
    rw [List.append_nil, Nat.ofDigitChars_nil]
  | cons c rest ih =>
    intro n positive
    have digit := all c List.mem_cons_self
    have small := digitValue_lt digit
    have step : Nat.toDigits 10 n ++ [c] = Nat.toDigits 10 (10 * n + digitValue c) := by
      rw [← Nat.toDigits_append_toDigits (by decide) positive small, Nat.toDigits_of_lt_base small,
        digitChar_digitValue digit]
    calc Nat.toDigits 10 n ++ c :: rest
        = (Nat.toDigits 10 n ++ [c]) ++ rest := by rw [List.append_assoc, List.singleton_append]
      _ = Nat.toDigits 10 (10 * n + digitValue c) ++ rest := by rw [step]
      _ = Nat.toDigits 10 (Nat.ofDigitChars 10 rest (10 * n + digitValue c)) :=
          ih (fun d member => all d (List.mem_cons_of_mem _ member)) (by omega)
      _ = Nat.toDigits 10 (Nat.ofDigitChars 10 (c :: rest) n) := by
          rw [Nat.ofDigitChars_cons]
          rfl

/-- Without a leading zero, digits are the numeral of what they denote. -/
theorem toDigits_natural {c : Char} {rest : List Char}
    (all : ∀ d ∈ c :: rest, isDigit d = true) (leading : c ≠ '0') :
    Nat.toDigits 10 (natural (c :: rest)) = c :: rest := by
  have digit := all c List.mem_cons_self
  have small := digitValue_lt digit
  have positive : 0 < digitValue c := by
    apply Nat.pos_of_ne_zero
    intro zero
    apply leading
    rw [← digitChar_digitValue digit, zero]
    rfl
  have whole := toDigits_append (fun d member => all d (List.mem_cons_of_mem _ member)) positive
  rw [Nat.toDigits_of_lt_base small, digitChar_digitValue digit] at whole
  rw [natural_eq_ofDigitChars, Nat.ofDigitChars_cons, Nat.mul_zero, Nat.zero_add,
    ← List.singleton_append, whole]
  rfl

/-- The digits of a positive number do not start with a zero. -/
theorem toDigits_eq_cons {n : Nat} (positive : 0 < n) :
    ∃ c rest, Nat.toDigits 10 n = c :: rest ∧ c ≠ '0' := by
  induction n using Nat.strongRecOn with
  | ind n ih =>
    by_cases small : n < 10
    · refine ⟨_, [], Nat.toDigits_of_lt_base small, ?_⟩
      intro zero
      rw [Nat.digitChar_eq_zero] at zero
      omega
    · obtain ⟨c, rest, digits, leading⟩ := ih (n / 10) (by omega) (by omega)
      refine ⟨c, rest ++ [(n % 10).digitChar], ?_, leading⟩
      rw [Nat.toDigits_of_base_le (by decide) (by omega), digits, List.cons_append]

/-- The last digit of a number is its remainder by ten. -/
theorem toDigits_eq_concat (n : Nat) :
    ∃ front, Nat.toDigits 10 n = front ++ [(n % 10).digitChar] := by
  by_cases small : n < 10
  · refine ⟨[], ?_⟩
    rw [Nat.toDigits_of_lt_base small, Nat.mod_eq_of_lt small, List.nil_append]
  · exact ⟨_, Nat.toDigits_of_base_le (by decide) (by omega)⟩

end Numeral

/-! ## How many digits a number has -/

/-- A number has as many digits as the power of ten above it has zeros. -/
theorem lt_powerOfTen_digitCount (n : Nat) : n < powerOfTen (digitCount n) :=
  (Nat.length_toDigits_le_iff (by decide) Nat.length_toDigits_pos).mp (Nat.le_refl _)

theorem digitCount_le_of_lt {n count : Nat} (positive : 0 < count) (less : n < powerOfTen count) :
    digitCount n ≤ count :=
  (Nat.length_toDigits_le_iff (by decide) positive).mpr less

/-- A positive number is at least the power of ten that its first digit stands for. -/
theorem powerOfTen_le_of_digitCount {n : Nat} (positive : 0 < n) :
    powerOfTen (digitCount n - 1) ≤ n := by
  apply Nat.le_of_not_lt
  intro less
  by_cases short : 0 < digitCount n - 1
  · have shorter := digitCount_le_of_lt short less
    omega
  · have none : digitCount n - 1 = 0 := by omega
    rw [none] at less
    exact absurd less (Nat.not_lt.mpr positive)

theorem digitCount_pos (n : Nat) : 0 < digitCount n := Nat.length_toDigits_pos

end Script
