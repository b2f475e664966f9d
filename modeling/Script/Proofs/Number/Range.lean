import Mathlib
import Script.Proofs.Number.Rounding

/-!
# The values that round to a rank

The values that round to a rank are an interval around its magnitude, its `range`.

* `mem_range_of_near`: how near to the magnitude every value is in its range.
* `Decimal.rank_eq_iff`: a decimal is read as a rank exactly if its value is in the rank's range.
-/

namespace Script

/-- The value of a decimal. -/
def Decimal.value (d : Decimal) : ℚ := d.coefficient * 10 ^ d.exponent

namespace Number

/-- The magnitude of a rank. -/
def absolute (rank : Nat) : ℚ := units rank / unitsPerOne

/-- The values that round to a rank: they lie between the middles of the ways to its neighbours. The
middles round to the even rank. -/
def range (rank : Nat) : Set ℚ :=
  let low := (absolute (rank - 1) + absolute rank) / 2
  let high := (absolute rank + absolute (rank + 1)) / 2
  if rank % 2 = 0 then Set.Icc low high else Set.Ioo low high

/-! ## Ranges -/

theorem unitsPerOne_pos : (0 : ℚ) < unitsPerOne := by
  rw [Nat.cast_pos, unitsPerOne, Nat.one_shiftLeft]
  exact Nat.two_pow_pos 1074

theorem absolute_strictMono : StrictMono absolute := fun _ _ less =>
  div_lt_div_of_pos_right (Nat.cast_lt.mpr (units_strictMono less)) unitsPerOne_pos

theorem absolute_nonneg (rank : Nat) : 0 ≤ absolute rank :=
  div_nonneg (Nat.cast_nonneg _) unitsPerOne_pos.le

/-- The way to the next rank is no shorter than the magnitude of that one by `2 ^ 53`. -/
theorem absolute_succ_le (rank : Nat) :
    absolute (rank + 1) ≤ 2 ^ 53 * (absolute (rank + 1) - absolute rank) := by
  obtain ⟨gap, _, up, wide⟩ := exists_gap rank
  unfold absolute
  rw [← sub_div, ← mul_div_assoc]
  apply div_le_div_of_nonneg_right _ unitsPerOne_pos.le
  have size : 2 * binadeSize = 2 ^ 53 := by decide
  rw [size] at wide
  rw [show (units (rank + 1) : ℚ) - units rank = gap by rw [up]; push_cast; ring]
  exact_mod_cast wide

theorem ordConnected_range (rank : Nat) : (range rank).OrdConnected := by
  unfold range
  simp only
  split
  · exact Set.ordConnected_Icc
  · exact Set.ordConnected_Ioo

/-- Either end of a range is no nearer to the magnitude than the magnitude by `2 ^ 54`. -/
theorem mem_range_of_near {rank : Nat} (positive : 0 < rank) {q : ℚ}
    (near : 2 ^ 54 * |q - absolute rank| < absolute rank) : q ∈ range rank := by
  obtain ⟨before, rfl⟩ := Nat.exists_eq_add_of_lt positive
  have down := absolute_succ_le (0 + before)
  have up := absolute_succ_le (0 + before + 1)
  have more := absolute_strictMono (Nat.lt_add_one (0 + before + 1))
  have toBelow := neg_abs_le (q - absolute (0 + before + 1))
  have toAbove := le_abs_self (q - absolute (0 + before + 1))
  have low : (absolute (0 + before) + absolute (0 + before + 1)) / 2 < q := by linarith
  have high : q < (absolute (0 + before + 1) + absolute (0 + before + 1 + 1)) / 2 := by linarith
  unfold range
  rw [Nat.add_sub_cancel]
  simp only
  split
  · exact ⟨low.le, high.le⟩
  · exact ⟨low, high⟩

theorem absolute_mem_range {rank : Nat} (positive : 0 < rank) : absolute rank ∈ range rank := by
  apply mem_range_of_near positive
  rw [sub_self, abs_zero, mul_zero]
  exact (absolute_nonneg 0).trans_lt (absolute_strictMono positive)

theorem pos_of_mem_range {rank : Nat} (positive : 0 < rank) {q : ℚ} (inside : q ∈ range rank) :
    0 < q := by
  have low := absolute_nonneg (rank - 1)
  have some : 0 < absolute rank := (absolute_nonneg 0).trans_lt (absolute_strictMono positive)
  unfold range at inside
  simp only at inside
  split at inside
  · linarith [inside.1]
  · linarith [inside.1]

/-- The middle of two magnitudes. -/
theorem middle_eq (first second : Nat) : (absolute first + absolute second) / 2 =
    (units first + units second : Nat) / (2 * unitsPerOne) := by
  unfold absolute
  rw [Nat.cast_add, ← add_div, div_div, mul_comm (unitsPerOne : ℚ)]

theorem roundsTo_iff_mem_range {rank num den : Nat} (positive : 0 < den) :
    roundsTo rank (num * unitsPerOne) den = true ↔ (num / den : ℚ) ∈ range rank := by
  have den' : (0 : ℚ) < den := Nat.cast_pos.mpr positive
  have two : (0 : ℚ) < 2 * unitsPerOne := mul_pos two_pos unitsPerOne_pos
  unfold roundsTo range lowerEnd upperEnd
  simp only [middle_eq]
  split
  · rw [Bool.and_eq_true, decide_eq_true_eq, decide_eq_true_eq, Set.mem_Icc,
      div_le_div_iff₀ two den', div_le_div_iff₀ den' two]
    norm_cast
    rw [Nat.mul_left_comm num]
  · rw [Bool.and_eq_true, decide_eq_true_eq, decide_eq_true_eq, Set.mem_Ioo,
      div_lt_div_iff₀ two den', div_lt_div_iff₀ den' two]
    norm_cast
    rw [Nat.mul_left_comm num]

end Number

/-! ## Powers of ten -/

theorem powerOfTen_eq (n : Nat) : powerOfTen n = 10 ^ n := rfl

/-- A power of ten as a quotient of whole ones. -/
theorem powerOfTen_div_powerOfTen (exponent : Int) :
    (powerOfTen exponent.toNat : ℚ) / powerOfTen (-exponent).toNat = 10 ^ exponent := by
  rw [powerOfTen_eq, powerOfTen_eq, Nat.cast_pow, Nat.cast_pow, ← zpow_natCast, ← zpow_natCast,
    Nat.cast_ofNat, ← zpow_sub₀ (by norm_num)]
  congr 1
  omega

/-- A decimal is read as a rank exactly if its value is in the rank's range. -/
theorem Decimal.rank_eq_iff {d : Decimal} {rank : Nat} (finite : rank < Number.infinityRank) :
    d.rank = rank ↔ d.value ∈ Number.range rank := by
  rw [rank_eq_exactRank]
  unfold exactRank
  rw [Number.nearestRank_eq_iff (powerOfTen_pos _) finite,
    Number.roundsTo_iff_mem_range (powerOfTen_pos _), Nat.cast_mul, mul_div_assoc,
    powerOfTen_div_powerOfTen]
  rfl

end Script
