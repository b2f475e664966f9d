import Mathlib
import Script.Number.Decimal

/-!
# Rounding is correct

A rank stands for a magnitude in units, and the magnitudes that round to it lie between the middles
of the ways to its two neighbours. The ends of that range belong to the even ranks.

* `units_strictMono`: a higher rank is a greater magnitude.
* `nearestRank_eq_iff`: `nearestRank` gives a rank exactly if the quotient lies in its range.
-/

namespace Script

/-- A rounded quotient is off by a half at most, and exactly by a half only if it is even. -/
theorem roundedQuotient_near (num : Nat) {den : Nat} (positive : 0 < den) :
    let near := roundedQuotient num den
    2 * num ≤ (2 * near + 1) * den ∧ 2 * near * den ≤ 2 * num + den ∧
      (near % 2 ≠ 0 → 2 * num ≠ (2 * near + 1) * den ∧ 2 * near * den ≠ 2 * num + den) := by
  intro near
  have whole := Nat.div_add_mod num den
  have less := Nat.mod_lt num positive
  unfold near roundedQuotient
  generalize num / den = quotient at *
  generalize num % den = remainder at *
  subst whole
  simp only
  split
  · refine ⟨by linarith, by linarith, fun _ => ⟨?_, ?_⟩⟩ <;> intro tie <;> linarith
  · split
    · refine ⟨by linarith, by linarith, fun _ => ⟨?_, ?_⟩⟩ <;> intro tie <;> linarith
    · have tie : 2 * remainder = den := by omega
      rcases Nat.mod_two_eq_zero_or_one quotient with even | odd
      · rw [even]
        exact ⟨by linarith, by linarith, fun odd => absurd even odd⟩
      · rw [odd]
        refine ⟨by linarith, by linarith, fun absent => absurd ?_ absent⟩
        omega

namespace Number

/-! ## The magnitudes of neighbours -/

/-- The magnitude of a rank that is a significand on top of the binades below it. -/
theorem units_of_significand {above significand : Nat} (most : significand ≤ 2 * binadeSize)
    (normal : above = 0 ∨ binadeSize ≤ significand) :
    units (above * binadeSize + significand) = significand * 2 ^ above := by
  unfold units
  rcases Nat.lt_or_ge significand binadeSize with small | large
  · obtain rfl : above = 0 := normal.resolve_right (Nat.not_le.mpr small)
    rw [Nat.zero_mul, Nat.zero_add, if_pos small, Nat.pow_zero, Nat.mul_one]
  · rw [if_neg (Nat.not_lt.mpr (Nat.le_add_left_of_le large)), Nat.shiftLeft_eq]
    rcases Nat.lt_or_eq_of_le most with less | rfl
    · have quotient : (above * binadeSize + significand) / binadeSize - 1 = above := by
        unfold binadeSize at *
        omega
      have remainder : (above * binadeSize + significand) % binadeSize + binadeSize =
          significand := by
        unfold binadeSize at *
        omega
      rw [quotient, remainder]
    · -- the significand belongs to the next binade
      have quotient : (above * binadeSize + 2 * binadeSize) / binadeSize - 1 = above + 1 := by
        unfold binadeSize
        omega
      have remainder : (above * binadeSize + 2 * binadeSize) % binadeSize = 0 := by
        unfold binadeSize
        omega
      rw [quotient, remainder, Nat.pow_succ]
      ring

/-- Every rank is a significand on top of the binades below it. -/
theorem exists_significand (rank : Nat) : ∃ above significand,
    rank = above * binadeSize + significand ∧ significand < 2 * binadeSize ∧
      (above = 0 ∨ binadeSize ≤ significand) := by
  refine ⟨rank / binadeSize - 1, rank - (rank / binadeSize - 1) * binadeSize, ?_⟩
  unfold binadeSize
  omega

/-- The way from a rank to the next is no shorter than that rank's magnitude by `2 ^ 53`. -/
theorem exists_gap (rank : Nat) : ∃ gap, 0 < gap ∧ units (rank + 1) = units rank + gap ∧
    units (rank + 1) ≤ 2 * binadeSize * gap := by
  obtain ⟨above, significand, rfl, less, normal⟩ := exists_significand rank
  rw [Nat.add_assoc, units_of_significand less (normal.imp_right Nat.le_succ_of_le),
    units_of_significand (Nat.le_of_lt less) normal]
  exact ⟨2 ^ above, Nat.two_pow_pos above, Nat.succ_mul _ _, Nat.mul_le_mul_right _ less⟩

theorem units_strictMono : StrictMono units :=
  strictMono_nat_of_lt_succ fun rank => by
    obtain ⟨gap, positive, up, _⟩ := exists_gap rank
    omega

/-! ## The range of a rank -/

/-- What rounds to a rank lies between the ends of its range, and on one of them only if the rank is
even. -/
theorem roundsTo_iff {rank num den : Nat} : roundsTo rank num den = true ↔
    lowerEnd rank * den ≤ 2 * num ∧ 2 * num ≤ upperEnd rank * den ∧
      (rank % 2 ≠ 0 → lowerEnd rank * den ≠ 2 * num ∧ 2 * num ≠ upperEnd rank * den) := by
  unfold roundsTo
  simp only
  split <;> simp only [Bool.and_eq_true, decide_eq_true_eq] <;> omega

/-- The ranges of two ranks have nothing in common. -/
theorem roundsTo_unique {num den first second : Nat} (positive : 0 < den)
    (one : roundsTo first num den = true) (other : roundsTo second num den = true) :
    first = second := by
  wlog order : first < second generalizing first second
  · rcases Nat.lt_or_eq_of_le (Nat.not_lt.mp order) with less | same
    · exact (this other one less).symm
    · exact same.symm
  exfalso
  obtain ⟨_, high, openEnd⟩ := roundsTo_iff.mp one
  obtain ⟨low, _, openStart⟩ := roundsTo_iff.mp other
  rcases Nat.lt_or_eq_of_le (Nat.succ_le_of_lt order) with apart | rfl
  · -- between the two ranges lies that of another rank
    have below : units first < units (second - 1) := units_strictMono (by omega)
    have above : units (first + 1) < units second := units_strictMono apart
    have less : upperEnd first * den < lowerEnd second * den := by
      apply Nat.mul_lt_mul_of_pos_right _ positive
      unfold upperEnd lowerEnd
      omega
    omega
  · -- both end where the ranges meet, and one of the ranks is odd
    have meet : lowerEnd (first + 1) = upperEnd first := rfl
    rw [meet] at low openStart
    omega

/-- In which binade a quotient lies. -/
theorem binade_bounds (num : Nat) {den : Nat} (positive : 0 < den) :
    let above := binade (num / den)
    num < 2 * binadeSize * (den * 2 ^ above) ∧
      (above = 0 ∨ binadeSize * (den * 2 ^ above) ≤ num) := by
  intro above
  have size : binadeSize = 2 ^ 52 := rfl
  rw [size]
  refine ⟨?_, ?_⟩
  · have less : num / den < 2 ^ (above + 53) := by
      refine Nat.lt_of_lt_of_le Nat.lt_log2_self (Nat.pow_le_pow_right (by decide) ?_)
      unfold above binade
      omega
    calc num < 2 ^ (above + 53) * den := (Nat.div_lt_iff_lt_mul positive).mp less
      _ = 2 * 2 ^ 52 * (den * 2 ^ above) := by rw [Nat.pow_add]; ring
  · rcases Nat.eq_zero_or_pos above with none | some
    · exact .inl none
    · have log : (num / den).log2 = above + 52 := by
        unfold above binade at some ⊢
        omega
      have nonzero : num / den ≠ 0 := by
        intro zero
        rw [zero, Nat.log2_zero] at log
        omega
      have least : 2 ^ (above + 52) ≤ num / den := by
        rw [← log]
        exact Nat.log2_self_le nonzero
      refine .inr ?_
      calc 2 ^ 52 * (den * 2 ^ above) = 2 ^ (above + 52) * den := by rw [Nat.pow_add]; ring
        _ ≤ num := (Nat.le_div_iff_mul_le positive).mp least

theorem upperEnd_of_significand {above significand : Nat} (less : significand < 2 * binadeSize)
    (normal : above = 0 ∨ binadeSize ≤ significand) :
    upperEnd (above * binadeSize + significand) = (2 * significand + 1) * 2 ^ above := by
  unfold upperEnd
  rw [Nat.add_assoc, units_of_significand less (normal.imp_right Nat.le_succ_of_le),
    units_of_significand (Nat.le_of_lt less) normal, Nat.succ_mul]
  ring

/-- The range of a rank starts where that of the one before ends. -/
theorem lowerEnd_succ (rank : Nat) : lowerEnd (rank + 1) = upperEnd rank := rfl

section Significands

variable {num den above significand : Nat}

/-- What is less than the upper end of a significand's range is less than the upper end of the
rank's, which is the same, or wider where the next binade starts. -/
theorem le_upperEnd (most : significand ≤ 2 * binadeSize)
    (normal : above = 0 ∨ binadeSize ≤ significand)
    (less : num < 2 * binadeSize * (den * 2 ^ above))
    (high : 2 * num ≤ (2 * significand + 1) * (den * 2 ^ above))
    (tie : significand % 2 ≠ 0 → 2 * num ≠ (2 * significand + 1) * (den * 2 ^ above)) :
    2 * num ≤ upperEnd (above * binadeSize + significand) * den ∧
      (significand % 2 ≠ 0 → 2 * num ≠ upperEnd (above * binadeSize + significand) * den) := by
  rcases Nat.lt_or_eq_of_le most with fewer | rfl
  · rw [upperEnd_of_significand fewer normal, Nat.mul_assoc, Nat.mul_comm (2 ^ above)]
    exact ⟨high, tie⟩
  · -- the rank is the first one of the next binade, where the way up is longer
    refine ⟨?_, fun odd => absurd (Nat.mul_mod_right 2 _) odd⟩
    have next : 2 * (2 * binadeSize * 2 ^ above) ≤
        upperEnd (above * binadeSize + 2 * binadeSize) := by
      have up := units_strictMono (Nat.lt_add_one (above * binadeSize + 2 * binadeSize))
      rw [units_of_significand most normal] at up
      unfold upperEnd
      rw [units_of_significand most normal]
      omega
    nlinarith

/-- What is more than the lower end of a significand's range is more than the lower end of the
rank's, which is the same, or narrower where a binade starts. -/
theorem lowerEnd_le (positive : 0 < den) (most : significand ≤ 2 * binadeSize)
    (normal : above = 0 ∨ binadeSize ≤ significand)
    (least : above = 0 ∨ binadeSize * (den * 2 ^ above) ≤ num)
    (low : 2 * significand * (den * 2 ^ above) ≤ 2 * num + den * 2 ^ above)
    (tie : significand % 2 ≠ 0 →
      2 * significand * (den * 2 ^ above) ≠ 2 * num + den * 2 ^ above) :
    lowerEnd (above * binadeSize + significand) * den ≤ 2 * num ∧
      (significand % 2 ≠ 0 → lowerEnd (above * binadeSize + significand) * den ≠ 2 * num) := by
  cases significand with
  | zero =>
    obtain rfl : above = 0 := normal.resolve_right (by decide)
    rw [show lowerEnd (0 * binadeSize + 0) = 0 from rfl, Nat.zero_mul]
    exact ⟨Nat.zero_le _, fun odd => absurd rfl odd⟩
  | succ significand =>
    by_cases same : above = 0 ∨ binadeSize ≤ significand
    · rw [← Nat.add_assoc, lowerEnd_succ, upperEnd_of_significand most same, Nat.mul_assoc,
        Nat.mul_comm (2 ^ above)]
      exact ⟨by linarith, fun odd tied => tie odd (by linarith)⟩
    · -- the rank is the first one of its binade, and nothing below the binade was rounded
      obtain ⟨binades, fewer⟩ := not_or.mp same
      have first : significand + 1 = binadeSize :=
        Nat.le_antisymm (Nat.not_le.mp fewer) (normal.resolve_left binades)
      have here := units_of_significand most normal
      have below : lowerEnd (above * binadeSize + (significand + 1)) <
          2 * (binadeSize * 2 ^ above) := by
        have down := units_strictMono (Nat.lt_add_one (above * binadeSize + significand))
        rw [Nat.add_assoc, here, first] at down
        rw [← Nat.add_assoc, lowerEnd_succ]
        unfold upperEnd
        rw [Nat.add_assoc, here, first]
        omega
      have strict : lowerEnd (above * binadeSize + (significand + 1)) * den < 2 * num := by
        calc lowerEnd (above * binadeSize + (significand + 1)) * den
            < 2 * (binadeSize * 2 ^ above) * den := Nat.mul_lt_mul_of_pos_right below positive
          _ = 2 * (binadeSize * (den * 2 ^ above)) := by ring
          _ ≤ 2 * num := Nat.mul_le_mul_left 2 (least.resolve_left binades)
      exact ⟨Nat.le_of_lt strict, fun _ => Nat.ne_of_lt strict⟩

end Significands

/-- The quotient, rounded in its binade, gives a rank in whose range it lies. -/
theorem roundsTo_roundedQuotient (num : Nat) {den : Nat} (positive : 0 < den) :
    let above := binade (num / den)
    roundsTo (above * binadeSize + roundedQuotient num (den * 2 ^ above)) num den = true := by
  intro above
  obtain ⟨less, least⟩ := binade_bounds num positive
  have unit : 0 < den * 2 ^ above := Nat.mul_pos positive (Nat.two_pow_pos above)
  obtain ⟨high, low, tie⟩ := roundedQuotient_near num unit
  generalize roundedQuotient num (den * 2 ^ above) = significand at *
  -- the quotient lies in the binade, so its rounding does, or is the start of the next one
  have most : significand ≤ 2 * binadeSize := by
    by_contra more
    nlinarith
  have normal : above = 0 ∨ binadeSize ≤ significand := by
    refine least.imp_right fun least => ?_
    by_contra fewer
    nlinarith
  obtain ⟨upper, openEnd⟩ := le_upperEnd most normal less high fun odd => (tie odd).1
  obtain ⟨lower, openStart⟩ := lowerEnd_le positive most normal least low fun odd => (tie odd).2
  refine roundsTo_iff.mpr ⟨lower, upper, fun oddRank => ?_⟩
  have odd : significand % 2 ≠ 0 := by
    unfold binadeSize at oddRank
    omega
  exact ⟨openStart odd, openEnd odd⟩

/-- `nearestRank` gives a finite rank exactly if the quotient lies in its range. -/
theorem nearestRank_eq_iff {num den rank : Nat} (positive : 0 < den)
    (finite : rank < infinityRank) :
    nearestRank num den = rank ↔ roundsTo rank (num * unitsPerOne) den = true := by
  have rounds := roundsTo_roundedQuotient (num * unitsPerOne) positive
  unfold nearestRank
  simp only [Nat.shiftLeft_eq]
  constructor
  · intro same
    rw [Nat.min_def] at same
    split at same
    · omega
    · rwa [← same]
  · intro given
    rw [roundsTo_unique positive rounds given]
    exact Nat.min_eq_right (Nat.le_of_lt finite)

end Number

end Script
