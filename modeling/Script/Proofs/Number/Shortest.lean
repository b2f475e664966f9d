import Mathlib
import Script.Proofs.Number.Digits
import Script.Proofs.Number.Range

/-!
# The shortest decimal is the shortest

On a grid of decimals, the two next to the magnitude of a rank are in its range if any is
(`onGrid?_cases`), and with seventeen digits one of them always is. So the first grid with a hit has
a shortest decimal on it, and of the shortest ones the nearest.

* `shortest_isShortest`: what `shortest` gives is that decimal.
-/

namespace Script

namespace Decimal

/-! ## Powers of ten -/

theorem zpow_ten_pos (exponent : Int) : (0 : ℚ) < 10 ^ exponent := zpow_pos (by norm_num) exponent

theorem pow_mul_zpow_ten (n : Nat) (exponent : Int) :
    ((10 ^ n : Nat) : ℚ) * 10 ^ exponent = 10 ^ (exponent + n) := by
  rw [Nat.cast_pow, Nat.cast_ofNat, ← zpow_natCast, ← zpow_add₀ (by norm_num), Int.add_comm]

/-! ## Zeros in the end -/

theorem value_trimmed (coefficient : Nat) (exponent : Int) :
    (trimmed coefficient exponent).value = coefficient * 10 ^ exponent := by
  fun_induction trimmed coefficient exponent with
  | case1 coefficient exponent ends ih =>
    rw [ih, zpow_add_one₀ (by norm_num), mul_comm _ (10 : ℚ), ← mul_assoc]
    congr 1
    have tens : coefficient / 10 * 10 = coefficient := by omega
    exact_mod_cast tens
  | case2 => rfl

theorem trimmed_mod_ten {coefficient : Nat} (exponent : Int) (positive : 0 < coefficient) :
    (trimmed coefficient exponent).coefficient % 10 ≠ 0 := by
  fun_induction trimmed coefficient exponent with
  | case1 coefficient exponent ends ih => exact ih (by omega)
  | case2 coefficient exponent stays =>
    show coefficient % 10 ≠ 0
    omega

theorem trimmed_coefficient_le (coefficient : Nat) (exponent : Int) :
    (trimmed coefficient exponent).coefficient ≤ coefficient := by
  fun_induction trimmed coefficient exponent with
  | case1 coefficient exponent ends ih => omega
  | case2 => exact Nat.le_refl _

/-- What rounds to a rank above zero is not zero. -/
theorem coefficient_pos {d : Decimal} {rank : Nat} (positive : 0 < rank)
    (inside : d.value ∈ Number.range rank) : 0 < d.coefficient := by
  have some := Number.pos_of_mem_range positive inside
  apply Nat.pos_of_ne_zero
  intro zero
  unfold value at some
  rw [zero, Nat.cast_zero, zero_mul] at some
  exact lt_irrefl _ some

end Decimal

namespace Number

/-! ## The first digit -/

/-- The first digit of a magnitude has the place that `decimalMagnitude` says. -/
theorem decimalMagnitude_bounds {rank : Nat} (positive : 0 < rank) :
    let top := decimalMagnitude (units rank)
    10 ^ top ≤ absolute rank ∧ absolute rank < 10 ^ (top + 1) := by
  intro top
  have some : 0 < units rank := units_strictMono positive
  have one : 0 < unitsPerOne := Nat.cast_pos.mp unitsPerOne_pos
  unfold top decimalMagnitude absolute
  split
  · rename_i large
    have least := powerOfTen_le_of_digitCount (Nat.div_pos large one)
    have most := lt_powerOfTen_digitCount (units rank / unitsPerOne)
    have digits := digitCount_pos (units rank / unitsPerOne)
    rw [Nat.le_div_iff_mul_le one, powerOfTen_eq] at least
    rw [Nat.div_lt_iff_lt_mul one, powerOfTen_eq] at most
    generalize digitCount (units rank / unitsPerOne) = count at *
    rw [le_div_iff₀ unitsPerOne_pos, div_lt_iff₀ unitsPerOne_pos, Int.sub_add_cancel,
      ← Nat.cast_pred digits, zpow_natCast, zpow_natCast]
    exact ⟨by exact_mod_cast least, by exact_mod_cast most⟩
  · rename_i small
    have least := powerOfTen_le_of_digitCount
      (n := (unitsPerOne - 1) / units rank) (Nat.div_pos (by omega) some)
    have most := lt_powerOfTen_digitCount ((unitsPerOne - 1) / units rank)
    have digits := digitCount_pos ((unitsPerOne - 1) / units rank)
    rw [Nat.le_div_iff_mul_le some, powerOfTen_eq] at least
    rw [Nat.div_lt_iff_lt_mul some, powerOfTen_eq] at most
    generalize digitCount ((unitsPerOne - 1) / units rank) = count at *
    have low : (unitsPerOne : ℚ) ≤ units rank * 10 ^ count := by
      rw [mul_comm]
      exact_mod_cast (show unitsPerOne ≤ 10 ^ count * units rank by omega)
    have high : (units rank : ℚ) * 10 ^ (count - 1) < unitsPerOne := by
      rw [mul_comm]
      exact_mod_cast (show 10 ^ (count - 1) * units rank < unitsPerOne by omega)
    rw [show -(count : Int) + 1 = -((count - 1 : Nat) : Int) by omega, zpow_neg, zpow_neg,
      zpow_natCast, zpow_natCast]
    rw [inv_eq_one_div, inv_eq_one_div, div_le_div_iff₀ (by positivity) unitsPerOne_pos,
      div_lt_div_iff₀ unitsPerOne_pos (by positivity), one_mul]
    exact ⟨low, high⟩

/-! ## The nearest multiples of a power of ten -/

/-- The factor by which `onGrid?` calculates with whole numbers. -/
def gridFactor (exponent : Int) : ℚ := unitsPerOne * powerOfTen (-exponent).toNat

theorem gridFactor_pos (exponent : Int) : 0 < gridFactor exponent :=
  mul_pos unitsPerOne_pos (Nat.cast_pos.mpr (Decimal.powerOfTen_pos _))

theorem multiple_scaled (multiple : Nat) (exponent : Int) :
    ((multiple * (unitsPerOne * powerOfTen exponent.toNat) : Nat) : ℚ) =
      multiple * 10 ^ exponent * gridFactor exponent := by
  have nonzero : (powerOfTen (-exponent).toNat : ℚ) ≠ 0 :=
    Nat.cast_ne_zero.mpr (Decimal.powerOfTen_pos _).ne'
  rw [← powerOfTen_div_powerOfTen, gridFactor, Nat.cast_mul, Nat.cast_mul]
  field_simp

theorem target_scaled (rank : Nat) (exponent : Int) :
    ((units rank * powerOfTen (-exponent).toNat : Nat) : ℚ) =
      absolute rank * gridFactor exponent := by
  rw [absolute, gridFactor, ← mul_assoc, div_mul_cancel₀ _ unitsPerOne_pos.ne', Nat.cast_mul]

theorem hit_iff (rank multiple : Nat) (exponent : Int) :
    roundsTo rank (multiple * (unitsPerOne * powerOfTen exponent.toNat))
      (powerOfTen (-exponent).toNat) = true ↔ (multiple * 10 ^ exponent : ℚ) ∈ range rank := by
  rw [Nat.mul_left_comm, Nat.mul_comm unitsPerOne,
    roundsTo_iff_mem_range (Decimal.powerOfTen_pos _), Nat.cast_mul, mul_div_assoc,
    powerOfTen_div_powerOfTen]

/-- All that `onGrid?` can do: it gives the multiple below the magnitude or that above, of two in
the range the nearer, and none if neither is in the range. -/
theorem onGrid?_cases (rank : Nat) (exponent : Int) : ∃ multiple : Nat,
    let lower : ℚ := multiple * 10 ^ exponent
    let upper : ℚ := (multiple + 1 : Nat) * 10 ^ exponent
    lower ≤ absolute rank ∧ absolute rank < upper ∧
    ((onGrid? rank exponent = some ⟨multiple, exponent⟩ ∧ lower ∈ range rank ∧
        (upper ∈ range rank → absolute rank - lower ≤ upper - absolute rank)) ∨
      (onGrid? rank exponent = some ⟨multiple + 1, exponent⟩ ∧ upper ∈ range rank ∧
        (lower ∈ range rank → upper - absolute rank ≤ absolute rank - lower)) ∨
      (onGrid? rank exponent = none ∧ lower ∉ range rank ∧ upper ∉ range rank)) := by
  have positive := gridFactor_pos exponent
  have target := target_scaled rank exponent
  have multiples := fun m => multiple_scaled m exponent
  have hits := fun m => hit_iff rank m exponent
  have step : 0 < unitsPerOne * powerOfTen exponent.toNat :=
    Nat.mul_pos (Nat.cast_pos.mp unitsPerOne_pos) (Decimal.powerOfTen_pos _)
  unfold onGrid?
  simp only
  generalize units rank * powerOfTen (-exponent).toNat = scaled at *
  generalize unitsPerOne * powerOfTen exponent.toNat = unit at *
  have below : scaled / unit * unit ≤ scaled := Nat.div_mul_le_self _ _
  have above : scaled < (scaled / unit + 1) * unit :=
    (Nat.div_lt_iff_lt_mul step).mp (Nat.lt_add_one _)
  generalize scaled / unit = multiple at *
  refine ⟨multiple, ?_⟩
  -- what holds of the whole numbers holds of the values
  have lower : (multiple * 10 ^ exponent : ℚ) ≤ absolute rank := by
    apply le_of_mul_le_mul_right _ positive
    rw [← multiples, ← target]
    exact_mod_cast below
  have upper : absolute rank < (multiple + 1 : Nat) * 10 ^ exponent := by
    apply lt_of_mul_lt_mul_right _ positive.le
    rw [← multiples, ← target]
    exact_mod_cast above
  have ordered : (absolute rank - multiple * 10 ^ exponent : ℚ) ≤
        (multiple + 1 : Nat) * 10 ^ exponent - absolute rank ↔
      scaled - multiple * unit ≤ (multiple + 1) * unit - scaled := by
    rw [← mul_le_mul_iff_left₀ positive, sub_mul, sub_mul, ← multiples, ← multiples, ← target,
      ← Nat.cast_sub below, ← Nat.cast_sub above.le, Nat.cast_le]
  have reversed : ((multiple + 1 : Nat) * 10 ^ exponent - absolute rank : ℚ) ≤
        absolute rank - multiple * 10 ^ exponent ↔
      (multiple + 1) * unit - scaled ≤ scaled - multiple * unit := by
    rw [← mul_le_mul_iff_left₀ positive, sub_mul, sub_mul, ← multiples, ← multiples, ← target,
      ← Nat.cast_sub below, ← Nat.cast_sub above.le, Nat.cast_le]
  refine ⟨lower, upper, ?_⟩
  rw [ordered, reversed, ← hits, ← hits]
  split
  · rename_i chosen
    rw [Bool.and_eq_true, Bool.not_eq_true', Bool.and_eq_false_iff, Bool.or_eq_false_iff,
      decide_eq_false_iff_not] at chosen
    refine .inl ⟨rfl, chosen.1, fun hit => ?_⟩
    rcases chosen.2 with missed | farther
    · cases hit.symm.trans missed
    · exact Nat.not_lt.mp farther.1
  · rename_i refused
    split
    · rename_i hit
      refine .inr (.inl ⟨rfl, hit, fun hitBelow => ?_⟩)
      rw [hitBelow, hit, Bool.true_and, Bool.true_and, Bool.not_eq_true', Bool.not_eq_false,
        Bool.or_eq_true, Bool.and_eq_true] at refused
      rcases refused with nearer | tie
      · exact (of_decide_eq_true nearer).le
      · exact (of_decide_eq_true tie.1).le
    · rename_i missed
      refine .inr (.inr ⟨rfl, ?_, missed⟩)
      intro hitBelow
      rw [hitBelow, Bool.eq_false_iff.mpr missed] at refused
      exact refused rfl

/-- If a multiple is in the range then one is found, and none is nearer than that. -/
theorem onGrid?_nearest {rank : Nat} (positive : 0 < rank) {exponent : Int} {multiple : Nat}
    (inside : (multiple * 10 ^ exponent : ℚ) ∈ range rank) :
    ∃ d, onGrid? rank exponent = some d ∧
      |d.value - absolute rank| ≤ |multiple * 10 ^ exponent - absolute rank| := by
  obtain ⟨below, lower, upper, found⟩ := onGrid?_cases rank exponent
  have unit := Decimal.zpow_ten_pos exponent
  have between := (ordConnected_range rank).out
  have center := absolute_mem_range positive
  have fromLower : |below * 10 ^ exponent - absolute rank| =
      absolute rank - below * 10 ^ exponent := by
    rw [abs_sub_comm, abs_of_nonneg (sub_nonneg.mpr lower)]
  have fromUpper : |(below + 1 : Nat) * 10 ^ exponent - absolute rank| =
      (below + 1 : Nat) * 10 ^ exponent - absolute rank :=
    abs_of_nonneg (sub_nonneg.mpr upper.le)
  rcases Nat.lt_or_ge below multiple with beyond | within
  · have order : ((below + 1 : Nat) * 10 ^ exponent : ℚ) ≤ multiple * 10 ^ exponent :=
      mul_le_mul_of_nonneg_right (Nat.cast_le.mpr beyond) unit.le
    have hit := between center inside ⟨upper.le, order⟩
    rw [abs_of_nonneg (sub_nonneg.mpr (upper.le.trans order))]
    rcases found with ⟨isLower, _, nearer⟩ | ⟨isUpper, _, _⟩ | ⟨_, _, missed⟩
    · refine ⟨_, isLower, fromLower.trans_le ?_⟩
      linarith [nearer hit]
    · refine ⟨_, isUpper, fromUpper.trans_le ?_⟩
      linarith
    · exact absurd hit missed
  · have order : (multiple * 10 ^ exponent : ℚ) ≤ below * 10 ^ exponent :=
      mul_le_mul_of_nonneg_right (Nat.cast_le.mpr within) unit.le
    have hit := between inside center ⟨order, lower⟩
    rw [abs_sub_comm _ (absolute rank), abs_of_nonneg (sub_nonneg.mpr (order.trans lower))]
    rcases found with ⟨isLower, _, _⟩ | ⟨isUpper, _, nearer⟩ | ⟨_, missed, _⟩
    · refine ⟨_, isLower, fromLower.trans_le ?_⟩
      linarith
    · refine ⟨_, isUpper, fromUpper.trans_le ?_⟩
      linarith [nearer hit]
    · exact absurd hit missed

/-- What is found is in the range, and less than a step above the magnitude. -/
theorem onGrid?_inside {rank : Nat} {exponent : Int} {d : Decimal}
    (given : onGrid? rank exponent = some d) :
    d.exponent = exponent ∧ d.value ∈ range rank ∧ d.value ≤ absolute rank + 10 ^ exponent := by
  obtain ⟨below, lower, upper, found⟩ := onGrid?_cases rank exponent
  have unit := Decimal.zpow_ten_pos exponent
  rcases found with ⟨isLower, hit, _⟩ | ⟨isUpper, hit, _⟩ | ⟨none, _⟩
  · cases given.symm.trans isLower
    refine ⟨rfl, hit, ?_⟩
    unfold Decimal.value
    linarith
  · cases given.symm.trans isUpper
    refine ⟨rfl, hit, ?_⟩
    unfold Decimal.value
    push_cast
    linarith
  · cases given.symm.trans none

/-- With seventeen digits there is always one. -/
theorem exists_onGrid?_last {rank : Nat} (positive : 0 < rank) :
    ∃ d, onGrid? rank (decimalMagnitude (units rank) - 16) = some d := by
  obtain ⟨top, _⟩ := decimalMagnitude_bounds positive
  generalize decimalMagnitude (units rank) = first at *
  obtain ⟨below, lower, upper, found⟩ := onGrid?_cases rank (first - 16)
  have unit := Decimal.zpow_ten_pos (first - 16)
  have fine : (10 : ℚ) ^ 16 * 10 ^ (first - 16) ≤ absolute rank := by
    calc (10 : ℚ) ^ 16 * 10 ^ (first - 16) = 10 ^ first := by
          rw [← zpow_natCast, ← zpow_add₀ (by norm_num)]
          congr 1
          push_cast
          ring
      _ ≤ absolute rank := top
  rcases found with ⟨isLower, _⟩ | ⟨isUpper, _⟩ | ⟨_, missedLower, missedUpper⟩
  · exact ⟨_, isLower⟩
  · exact ⟨_, isUpper⟩
  · -- one of the two is nearer than half a step
    exfalso
    push_cast at upper missedUpper
    by_cases half : 2 * (absolute rank - below * 10 ^ (first - 16)) ≤ 10 ^ (first - 16)
    · apply missedLower
      apply mem_range_of_near positive
      rw [abs_sub_comm, abs_of_nonneg (sub_nonneg.mpr lower)]
      linarith
    · apply missedUpper
      apply mem_range_of_near positive
      rw [abs_of_nonneg (sub_nonneg.mpr upper.le)]
      linarith

/-! ## The first grid with a hit -/

/-- The search ends on the first grid with a hit, whatever other grids have one. -/
theorem exists_shortest {rank : Nat} (positive : 0 < rank) :
    ∃ (places : Nat) (d : Decimal), places < maxDigits ∧
      onGrid? rank (decimalMagnitude (units rank) - places) = some d ∧
      shortest rank = .trimmed d.coefficient d.exponent ∧
      ∀ other < maxDigits, (∃ e, onGrid? rank (decimalMagnitude (units rank) - other) = some e) →
        places ≤ other := by
  obtain ⟨last, hit⟩ := exists_onGrid?_last positive
  unfold shortest
  rw [if_neg positive.ne']
  simp only
  generalize decimalMagnitude (units rank) = top at *
  split
  · rename_i d found
    obtain ⟨before, places, after, split, hit, missed⟩ := List.findSome?_eq_some_iff.mp found
    have inside : places ∈ List.range maxDigits := by rw [split]; simp
    refine ⟨places, d, List.mem_range.mp inside, hit, rfl, ?_⟩
    rintro other less ⟨e, otherHit⟩
    by_contra earlier
    -- the places are tried in order, so an earlier one was tried and missed
    have ordered := List.pairwise_lt_range (n := maxDigits)
    have member : other ∈ List.range maxDigits := List.mem_range.mpr less
    rw [split] at ordered member
    rcases List.mem_append.mp member with first | rest
    · cases (missed other first).symm.trans otherHit
    · rcases List.mem_cons.mp rest with rfl | later
      · exact earlier (Nat.le_refl _)
      · have := (List.pairwise_cons.mp (List.pairwise_append.mp ordered).2.1).1 other later
        omega
  · rename_i none
    rw [List.findSome?_eq_none_iff] at none
    cases (none 16 (by decide)).symm.trans hit

end Number

/-- A decimal that rounds to a rank, of those the shortest, and of those the nearest to its
magnitude. It is written without zeros in the end. -/
structure Decimal.IsShortest (d : Decimal) (rank : Nat) : Prop where
  rounds : d.rank = rank
  fewest : ∀ other : Decimal, other.rank = rank →
    digitCount d.coefficient ≤ digitCount other.coefficient
  nearest : ∀ other : Decimal, other.rank = rank →
    digitCount other.coefficient = digitCount d.coefficient →
    |d.value - Number.absolute rank| ≤ |other.value - Number.absolute rank|
  trimmed : d.coefficient % 10 ≠ 0

namespace Number

/-- A decimal that rounds to a rank has as good a one on the grid of as many digits. -/
theorem exists_multiple {rank : Nat} (positive : 0 < rank) {d : Decimal}
    (inside : d.value ∈ range rank) :
    ∃ multiple : Nat,
      let value : ℚ := multiple *
        10 ^ (decimalMagnitude (units rank) - (digitCount d.coefficient - 1 : Nat))
      value ∈ range rank ∧ |value - absolute rank| ≤ |d.value - absolute rank| := by
  obtain ⟨first, _⟩ := decimalMagnitude_bounds positive
  generalize decimalMagnitude (units rank) = top at *
  have digits := digitCount_pos d.coefficient
  have most := lt_powerOfTen_digitCount d.coefficient
  rw [powerOfTen_eq] at most
  generalize digitCount d.coefficient = count at *
  by_cases coarse : top - (count - 1 : Nat) ≤ d.exponent
  · -- the decimal itself is on the grid
    obtain ⟨shift, apart⟩ := Int.le.dest coarse
    have same : ((d.coefficient * 10 ^ shift : Nat) * 10 ^ (top - (count - 1 : Nat)) : ℚ) =
        d.value := by
      rw [Nat.cast_mul, mul_assoc, Decimal.pow_mul_zpow_ten, apart]
      rfl
    refine ⟨d.coefficient * 10 ^ shift, ?_⟩
    simp only [same]
    exact ⟨inside, le_rfl⟩
  · -- the decimal is less than the power of ten below the magnitude
    have same : ((10 ^ (count - 1) : Nat) * 10 ^ (top - (count - 1 : Nat)) : ℚ) = 10 ^ top := by
      rw [Decimal.pow_mul_zpow_ten, Int.sub_add_cancel]
    have less : d.value ≤ 10 ^ top := by
      calc d.value ≤ (10 ^ count : Nat) * 10 ^ d.exponent :=
            mul_le_mul_of_nonneg_right (Nat.cast_le.mpr most.le) (Decimal.zpow_ten_pos _).le
        _ = 10 ^ (d.exponent + count) := Decimal.pow_mul_zpow_ten _ _
        _ ≤ 10 ^ top := zpow_le_zpow_right₀ (by norm_num) (by omega)
    refine ⟨10 ^ (count - 1), ?_⟩
    simp only [same]
    refine ⟨(ordConnected_range rank).out inside (absolute_mem_range positive) ⟨less, first⟩, ?_⟩
    rw [abs_sub_comm, abs_of_nonneg (sub_nonneg.mpr first), abs_sub_comm d.value,
      abs_of_nonneg (sub_nonneg.mpr (less.trans first))]
    linarith

/-- A decimal from the grid of so many digits has no more of them, once zeros in the end are
gone. -/
theorem digitCount_trimmed_le {rank places : Nat} (positive : 0 < rank) {d : Decimal}
    (given : onGrid? rank (decimalMagnitude (units rank) - places) = some d)
    (ends : (Decimal.trimmed d.coefficient d.exponent).coefficient % 10 ≠ 0) :
    digitCount (Decimal.trimmed d.coefficient d.exponent).coefficient ≤ places + 1 := by
  obtain ⟨_, last⟩ := decimalMagnitude_bounds positive
  obtain ⟨exponent, _, near⟩ := onGrid?_inside given
  generalize decimalMagnitude (units rank) = top at *
  have unit := Decimal.zpow_ten_pos (top - places)
  have most : d.coefficient ≤ 10 ^ (places + 1) := by
    have bound : (d.coefficient : ℚ) * 10 ^ (top - places) <
        ((10 ^ (places + 1) + 1 : Nat) : ℚ) * 10 ^ (top - places) := by
      rw [Nat.cast_add, add_mul, Decimal.pow_mul_zpow_ten, Nat.cast_one, one_mul]
      unfold Decimal.value at near
      rw [exponent] at near
      rw [show top - places + (places + 1 : Nat) = top + 1 by push_cast; ring]
      linarith
    exact Nat.le_of_lt_add_one (Nat.cast_lt.mp (lt_of_mul_lt_mul_right bound unit.le))
  refine digitCount_le_of_lt (Nat.succ_pos _) (Nat.lt_of_le_of_ne ?_ ?_)
  · exact (Decimal.trimmed_coefficient_le _ _).trans most
  · intro full
    rw [full, powerOfTen_eq, Nat.pow_succ, Nat.mul_mod_left] at ends
    exact ends rfl

/-- The shortest decimal of a rank is the shortest that rounds to it, and of those the nearest. -/
theorem shortest_isShortest {rank : Nat} (positive : 0 < rank) (finite : rank < infinityRank) :
    (shortest rank).IsShortest rank := by
  obtain ⟨places, d, few, found, same, first⟩ := exists_shortest positive
  obtain ⟨exponent, inside, _⟩ := onGrid?_inside found
  have value : (Decimal.trimmed d.coefficient d.exponent).value = d.value :=
    Decimal.value_trimmed _ _
  have ends := Decimal.trimmed_mod_ten d.exponent (Decimal.coefficient_pos positive inside)
  have digits := digitCount_trimmed_le positive found ends
  rw [same]
  refine ⟨(Decimal.rank_eq_iff finite).mpr (value ▸ inside), ?_, ?_, ends⟩
  · intro other rounds
    obtain ⟨_, hit, _⟩ := exists_multiple positive ((Decimal.rank_eq_iff finite).mp rounds)
    obtain ⟨e, otherFound, _⟩ := onGrid?_nearest positive hit
    have count := digitCount_pos other.coefficient
    by_cases many : digitCount other.coefficient - 1 < maxDigits
    · have earlier := first _ many ⟨e, otherFound⟩
      omega
    · omega
  · intro other rounds sameCount
    obtain ⟨_, hit, near⟩ := exists_multiple positive ((Decimal.rank_eq_iff finite).mp rounds)
    obtain ⟨e, otherFound, nearest⟩ := onGrid?_nearest positive hit
    have count := digitCount_pos other.coefficient
    -- the other decimal has as many digits as the grid on which the search ended
    have earlier := first (digitCount other.coefficient - 1) (by omega) ⟨e, otherFound⟩
    have grid : places = digitCount other.coefficient - 1 := by omega
    rw [← grid, found] at otherFound
    cases otherFound
    rw [value]
    exact nearest.trans near

end Number

end Script
