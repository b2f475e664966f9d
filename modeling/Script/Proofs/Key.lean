import Script.Proofs.Number.Digits
import Script.Run

/-!
# Which keys are indices

A key names an index if and only if it is the decimal numeral that the index is written with, so
different keys never name the same index (`Key.index?_eq_some_iff`). Only keys of too many digits
are a fault.
-/

namespace Script.Key

theorem isDigits_iff {chars : List Char} :
    isDigits chars = true ↔ chars ≠ [] ∧ ∀ c ∈ chars, isDigit c = true := by
  cases chars <;> simp [isDigits]

/-- Canonical digits are those of a number. -/
theorem isCanonical_iff {chars : List Char} (digits : isDigits chars = true) :
    isCanonical chars = true ↔ chars = Nat.toDigits 10 (Numeral.natural chars) := by
  obtain ⟨nonempty, all⟩ := isDigits_iff.mp digits
  constructor
  · intro canonical
    cases chars with
    | nil => exact absurd rfl nonempty
    | cons c rest =>
      by_cases leading : c = '0'
      · -- a zero at the start stands alone
        subst leading
        cases rest with
        | nil => rfl
        | cons _ _ => cases canonical
      · exact (Numeral.toDigits_natural all leading).symm
  · intro same
    by_cases zero : Numeral.natural chars = 0
    · rw [zero, Nat.toDigits_zero] at same
      rw [same]
      rfl
    · obtain ⟨c, rest, form, leading⟩ := Numeral.toDigits_eq_cons (Nat.pos_of_ne_zero zero)
      rw [same, form]
      unfold isCanonical
      split
      · rename_i cons
        exact absurd (List.cons.inj cons).1 leading
      · rfl

/-- A key names an index if it is the numeral of the index and not too long. -/
theorem index?_eq_some_iff {key : String} {index : Nat} :
    index? key = .ok (some index) ↔ key.length ≤ Fault.maxKeyDigits ∧ key = index.repr := by
  rw [← String.toList_inj, Nat.toList_repr, ← String.length_toList]
  unfold index?
  generalize key.toList = chars
  constructor
  · intro found
    simp only at found
    split at found
    · rename_i digits
      split at found
      · cases found
      · rename_i short
        split at found
        · rename_i canonical
          cases found
          exact ⟨Nat.le_of_not_lt short, (isCanonical_iff digits).mp canonical⟩
        · cases found
    · cases found
  · rintro ⟨short, rfl⟩
    have digits : isDigits (Nat.toDigits 10 index) = true :=
      isDigits_iff.mpr ⟨Nat.toDigits_ne_nil, fun c => Numeral.isDigit_of_mem_toDigits⟩
    have canonical : isCanonical (Nat.toDigits 10 index) = true := by
      rw [isCanonical_iff digits, Numeral.natural_toDigits]
    simp only [digits, if_true, if_neg (Nat.not_lt.mpr short), canonical, Numeral.natural_toDigits]

/-- A key that is not too long is no fault. -/
theorem exists_index?_of_short {key : String} (short : key.length ≤ Fault.maxKeyDigits) :
    ∃ index, index? key = .ok index := by
  rw [← String.length_toList] at short
  unfold index?
  generalize key.toList = chars at short
  simp only [if_neg (Nat.not_lt.mpr short)]
  split
  · split
    · exact ⟨_, rfl⟩
    · exact ⟨_, rfl⟩
  · exact ⟨_, rfl⟩

end Script.Key
