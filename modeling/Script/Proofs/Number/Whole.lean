import Mathlib
import Script.Proofs.Number.Display

/-!
# Whole numbers and their shortest decimals

The ranges of the ranks lie in order, and a value that a number has exactly lies in the range of
that number only. The whole numbers up to `2 ^ 53` are such values, as is `10 ^ 21`, and from
`2 ^ 53` on every number is whole.

* `value_lt_iff`, `exponent_nonneg_iff`: the shortest decimal of a number is below `10 ^ 21` or
  whole exactly if the number is.
* `value_eq_of_le`: for whole numbers up to `2 ^ 53` the shortest decimal is the number.
-/

namespace Script

namespace Number

variable {rank other : Nat} {q : ℚ}

/-! ## Ranges in order -/

/-- A range lies between its middles, and an odd rank's between them only. -/
theorem mem_range_iff : q ∈ range rank ↔
    (absolute (rank - 1) + absolute rank) / 2 ≤ q ∧
      q ≤ (absolute rank + absolute (rank + 1)) / 2 ∧
      (rank % 2 ≠ 0 → (absolute (rank - 1) + absolute rank) / 2 ≠ q ∧
        q ≠ (absolute rank + absolute (rank + 1)) / 2) := by
  unfold range
  simp only
  split
  · rename_i even
    rw [Set.mem_Icc]
    exact ⟨fun inside => ⟨inside.1, inside.2, fun odd => absurd even odd⟩,
      fun inside => ⟨inside.1, inside.2.1⟩⟩
  · rename_i odd
    rw [Set.mem_Ioo]
    refine ⟨fun inside => ⟨inside.1.le, inside.2.le, fun _ => ⟨inside.1.ne, inside.2.ne⟩⟩,
      fun inside => ?_⟩
    obtain ⟨low, high, apart⟩ := inside
    exact ⟨low.lt_of_ne (apart odd).1, high.lt_of_ne (apart odd).2⟩

/-- What rounds to a lower rank is less. -/
theorem lt_of_mem_range {p : ℚ} (less : rank < other) (lower : p ∈ range rank)
    (higher : q ∈ range other) : p < q := by
  obtain ⟨_, high, openEnd⟩ := mem_range_iff.mp lower
  obtain ⟨low, _, openStart⟩ := mem_range_iff.mp higher
  have steps : absolute rank ≤ absolute (other - 1) :=
    absolute_strictMono.monotone (Nat.le_sub_one_of_lt less)
  have next : absolute (rank + 1) ≤ absolute other := absolute_strictMono.monotone less
  apply lt_of_le_of_ne (by linarith)
  intro same
  -- both values are the middle where the two ranges meet, and one of the two ranks is odd
  have meet : absolute (rank + 1) = absolute other := by linarith
  have neighbours : rank + 1 = other := absolute_strictMono.injective meet
  subst neighbours
  rw [Nat.add_sub_cancel] at low openStart
  have middle : (absolute rank + absolute (rank + 1)) / 2 = q := by linarith
  by_cases odd : rank % 2 = 0
  · exact (openStart (by omega)).1 middle
  · exact (openEnd odd).2 (same.trans middle.symm)

/-- A value rounds to one rank only. -/
theorem eq_of_mem_range (one : q ∈ range rank) (another : q ∈ range other) : rank = other := by
  rcases Nat.lt_trichotomy rank other with less | same | more
  · exact absurd (lt_of_mem_range less one another) (lt_irrefl q)
  · exact same
  · exact absurd (lt_of_mem_range more another one) (lt_irrefl q)

/-- Positive values that some rank has exactly. -/
def IsMagnitude (q : ℚ) : Prop := 0 < q ∧ ∃ rank, absolute rank = q

/-- A magnitude rounds to the rank that has it, and to no other. -/
theorem IsMagnitude.absolute_eq (magnitude : IsMagnitude q) (inside : q ∈ range rank) :
    absolute rank = q := by
  obtain ⟨positive, other, rfl⟩ := magnitude
  have some : 0 < other := by
    apply Nat.pos_of_ne_zero
    rintro rfl
    exact positive.ne' (by decide +kernel)
  rw [eq_of_mem_range inside (absolute_mem_range some)]

/-! ## Which whole numbers are magnitudes -/

/-- Twice a magnitude is a magnitude. -/
theorem exists_units_double (rank : Nat) : ∃ other, units other = 2 * units rank := by
  obtain ⟨above, significand, rfl, less, normal⟩ := exists_significand rank
  rw [units_of_significand less.le normal]
  by_cases small : significand < binadeSize
  · obtain rfl : above = 0 := normal.resolve_right (Nat.not_le.mpr small)
    have double := @units_of_significand 0 (2 * significand) (by omega) (.inl rfl)
    refine ⟨_, double.trans ?_⟩
    ring
  · have next := @units_of_significand (above + 1) _ less.le (.inr (Nat.not_lt.mp small))
    refine ⟨_, next.trans ?_⟩
    ring

theorem exists_units {significand : Nat} (most : significand ≤ 2 * binadeSize) (shift : Nat) :
    ∃ rank, units rank = significand * 2 ^ shift := by
  induction shift with
  | zero =>
    refine ⟨0 * binadeSize + significand, ?_⟩
    exact units_of_significand most (.inl rfl)
  | succ shift ih =>
    obtain ⟨rank, same⟩ := ih
    obtain ⟨other, double⟩ := exists_units_double rank
    refine ⟨other, ?_⟩
    rw [double, same]
    ring

theorem exists_unitsPerOne : ∃ places : Nat, unitsPerOne = 2 ^ places := by
  unfold unitsPerOne
  generalize 1074 = places
  exact ⟨places, Nat.one_shiftLeft places⟩

/-- A whole number with at most `53` significant bits is a magnitude. -/
theorem isMagnitude_of_significand {significand : Nat} (positive : 0 < significand)
    (most : significand ≤ 2 ^ 53) (shift : Nat) : IsMagnitude (significand * 2 ^ shift : Nat) := by
  obtain ⟨places, one⟩ := exists_unitsPerOne
  obtain ⟨rank, same⟩ := exists_units most (shift + places)
  refine ⟨Nat.cast_pos.mpr (Nat.mul_pos positive (Nat.two_pow_pos shift)), rank, ?_⟩
  unfold absolute
  rw [div_eq_iff unitsPerOne_pos.ne', same, one, Nat.pow_add, ← Nat.mul_assoc, Nat.cast_mul]

theorem isMagnitude_of_le {n : Nat} (positive : 0 < n) (most : n ≤ 2 ^ 53) : IsMagnitude n := by
  have itself := isMagnitude_of_significand positive most 0
  rwa [Nat.pow_zero, Nat.mul_one] at itself

theorem isMagnitude_tenPow : IsMagnitude (10 ^ 21) := by
  have bound : ((5 ^ 21 * 2 ^ 21 : Nat) : ℚ) = 10 ^ 21 := by norm_num
  rw [← bound]
  exact isMagnitude_of_significand (by norm_num) (by norm_num) 21

/-- From `2 ^ 53` on every magnitude is whole. -/
theorem exists_whole_of_large (large : 2 ^ 53 ≤ absolute rank) : ∃ n : Nat, absolute rank = n := by
  obtain ⟨places, one⟩ := exists_unitsPerOne
  obtain ⟨above, significand, rfl, less, normal⟩ := exists_significand rank
  have count := units_of_significand less.le normal
  have positive := unitsPerOne_pos
  unfold absolute at large ⊢
  rw [count, one] at large ⊢
  rw [one] at positive
  rw [le_div_iff₀ positive] at large
  have scaled : 2 ^ 53 * 2 ^ places ≤ significand * 2 ^ above := by exact_mod_cast large
  have high : places ≤ above := by
    by_contra low
    have unit : 2 ^ above ≤ 2 ^ places := Nat.pow_le_pow_right (by decide) (by omega)
    have size : 2 * binadeSize = 2 ^ 53 := by decide
    have fewer : significand * 2 ^ above < 2 ^ 53 * 2 ^ places :=
      Nat.mul_lt_mul_of_lt_of_le (size ▸ less) unit (Nat.two_pow_pos places)
    omega
  refine ⟨significand * 2 ^ (above - places), ?_⟩
  rw [div_eq_iff positive.ne', ← Nat.cast_mul, Nat.mul_assoc, ← Nat.pow_add,
    Nat.sub_add_cancel high]

end Number

namespace Decimal

theorem value_power (places : Nat) : (⟨1, places⟩ : Decimal).value = 10 ^ places := by
  unfold value
  rw [Nat.cast_one, one_mul, zpow_natCast]

theorem value_natural (n : Nat) : (⟨n, 0⟩ : Decimal).value = n := by
  unfold value
  rw [zpow_zero, mul_one]

theorem value_of_exponent {d : Decimal} (whole : 0 ≤ d.exponent) :
    d.value = (d.coefficient * 10 ^ d.exponent.toNat : Nat) := by
  obtain ⟨places, same⟩ := Int.eq_ofNat_of_zero_le whole
  unfold value
  rw [same, Int.toNat_natCast, zpow_natCast]
  push_cast
  rfl

theorem digitCount_one_le (n : Nat) : digitCount 1 ≤ digitCount n := digitCount_pos n

namespace IsShortest

open Number

variable {rank : Nat} {d : Decimal}

theorem mem_range (short : d.IsShortest rank) (finite : rank < infinityRank) :
    d.value ∈ range rank := (rank_eq_iff finite).mp short.rounds

/-! ## The shortest decimal of a whole number -/

section Positive

variable (short : d.IsShortest rank) (finite : rank < infinityRank) (positive : 0 < rank)
include short finite positive

/-- A decimal that is the number leaves no other choice among those of as many digits or more. -/
theorem value_eq_of_few {e : Decimal} (same : e.value = absolute rank)
    (few : digitCount e.coefficient ≤ digitCount d.coefficient) : d.value = absolute rank := by
  have rounds : e.rank = rank := (rank_eq_iff finite).mpr (same ▸ absolute_mem_range positive)
  have near := short.nearest e rounds (Nat.le_antisymm few (short.fewest e rounds))
  rw [same, sub_self, abs_zero] at near
  exact sub_eq_zero.mp (abs_nonpos_iff.mp near)

/-- Between a number and its shortest decimal lies no other number. -/
theorem absolute_eq_of_between {q : ℚ} (magnitude : IsMagnitude q)
    (between : q ∈ Set.uIcc (absolute rank) d.value) : absolute rank = q := by
  apply magnitude.absolute_eq
  exact (ordConnected_range rank).uIcc_subset (absolute_mem_range positive)
    (short.mem_range finite) between

/-- The shortest decimal is below `10 ^ 21` exactly if the number is. -/
theorem value_lt_iff : d.value < 10 ^ 21 ↔ absolute rank < 10 ^ 21 := by
  have between := short.absolute_eq_of_between finite positive isMagnitude_tenPow
  constructor
  · intro less
    by_contra large
    have same := between (Set.mem_uIcc.mpr (.inr ⟨less.le, not_lt.mp large⟩))
    -- the bound has one digit only, so no other decimal could have been chosen
    have one := (value_power 21).trans same.symm
    have chosen := short.value_eq_of_few finite positive one (digitCount_one_le _)
    linarith
  · intro less
    by_contra large
    have same := between (Set.mem_uIcc.mpr (.inl ⟨less.le, not_lt.mp large⟩))
    linarith

/-- The shortest decimal is no less than a power of ten that the number reaches. -/
theorem pow_le_value {places : Nat} (least : 10 ^ places ≤ absolute rank) :
    10 ^ places ≤ d.value := by
  by_contra less
  -- otherwise the power rounds to the rank as well, and it is nearer and has one digit only
  have below := not_le.mp less
  have rounds : (⟨1, places⟩ : Decimal).rank = rank := by
    rw [rank_eq_iff finite, value_power]
    exact (ordConnected_range rank).out (short.mem_range finite) (absolute_mem_range positive)
      ⟨below.le, least⟩
  have single : digitCount 1 = digitCount d.coefficient :=
    Nat.le_antisymm (digitCount_one_le _) (short.fewest _ rounds)
  have near := short.nearest _ rounds single
  rw [value_power, abs_of_nonpos (by linarith), abs_of_nonpos (by linarith)] at near
  linarith

/-- The shortest decimal is whole if the number is. -/
theorem exponent_nonneg {n : Nat} (same : absolute rank = n) : 0 ≤ d.exponent := by
  by_contra fractional
  have some : 0 < n := by
    have magnitude := (absolute_nonneg 0).trans_lt (absolute_strictMono positive)
    rwa [same, Nat.cast_pos] at magnitude
  by_cases few : digitCount n ≤ digitCount d.coefficient
  · -- the number is chosen itself, and then it ends in a zero
    have whole := (value_natural n).trans same.symm
    have chosen := short.value_eq_of_few finite positive whole few
    obtain ⟨places, negative⟩ : ∃ places : Nat, d.exponent = -((places + 1 : Nat) : Int) :=
      ⟨(-d.exponent).toNat - 1, by omega⟩
    have coefficient : d.coefficient = n * 10 ^ (places + 1) := by
      unfold value at chosen
      rw [same, negative, zpow_neg, zpow_natCast, ← div_eq_mul_inv,
        div_eq_iff (by positivity)] at chosen
      exact_mod_cast chosen
    apply short.trimmed
    rw [coefficient, Nat.pow_succ, ← Nat.mul_assoc, Nat.mul_mod_left]
  · -- a decimal with fewer digits and a fraction is less than the number's first power of ten
    have least : (10 : ℚ) ^ (digitCount n - 1) ≤ absolute rank := by
      rw [same]
      exact_mod_cast powerOfTen_le_of_digitCount some
    have reached := short.pow_le_value finite positive least
    obtain ⟨_, most⟩ := d.magnitude_bounds (coefficient_pos positive (short.mem_range finite))
    rw [← zpow_natCast] at reached
    have order := (zpow_lt_zpow_iff_right₀ (by norm_num)).mp (reached.trans_lt most)
    unfold magnitude at order
    omega

/-- The shortest decimal is whole exactly if the number is. -/
theorem exponent_nonneg_iff : 0 ≤ d.exponent ↔ ∃ n : Nat, absolute rank = n := by
  refine ⟨fun whole => ?_, fun ⟨n, same⟩ => short.exponent_nonneg finite positive same⟩
  by_cases large : 2 ^ 53 ≤ absolute rank
  · exact exists_whole_of_large large
  · have natural := value_of_exponent whole
    have inside := short.mem_range finite
    have some := pos_of_mem_range positive inside
    generalize d.coefficient * 10 ^ d.exponent.toNat = i at natural
    rw [natural] at inside some
    by_cases small : i ≤ 2 ^ 53
    · exact ⟨i, (isMagnitude_of_le (Nat.cast_pos.mp some) small).absolute_eq inside⟩
    · -- then a whole number lies between the two, and it is the number
      have bound : IsMagnitude (2 ^ 53 : Nat) := isMagnitude_of_le (by decide) (le_refl _)
      refine ⟨_, short.absolute_eq_of_between finite positive bound (Set.mem_uIcc.mpr (.inl ?_))⟩
      rw [natural]
      refine ⟨?_, Nat.cast_le.mpr (Nat.le_of_not_le small)⟩
      push_cast
      exact le_of_not_ge large

/-- Only `2 ^ 53` could have a whole decimal beyond `2 ^ 53`, and that would be the next one. -/
theorem eq_of_exceeds {n i : Nat} (same : absolute rank = n) (natural : d.value = i)
    (small : n ≤ 2 ^ 53) (more : 2 ^ 53 < i) : n = 2 ^ 53 ∧ i = 2 ^ 53 + 1 := by
  have bound : IsMagnitude (2 ^ 53 : Nat) := isMagnitude_of_le (by decide) (le_refl _)
  have next : IsMagnitude ((2 ^ 52 + 1) * 2 ^ 1 : Nat) :=
    isMagnitude_of_significand (by decide) (by decide) 1
  have between : ∀ m : Nat, IsMagnitude m → n ≤ m → m ≤ i → n = m := by
    intro m magnitude low high
    have inside : (m : ℚ) ∈ Set.uIcc (absolute rank) d.value := by
      rw [same, natural]
      exact Set.mem_uIcc.mpr (.inl ⟨Nat.cast_le.mpr low, Nat.cast_le.mpr high⟩)
    have exactly := short.absolute_eq_of_between finite positive magnitude inside
    exact Nat.cast_injective (same.symm.trans exactly)
  have top := between _ bound small more.le
  refine ⟨top, ?_⟩
  by_contra other
  have far := between _ next (by omega) (by omega)
  omega

/-- Up to `2 ^ 53` the shortest decimal of a whole number is that number. -/
theorem value_eq_of_le {n : Nat} (same : absolute rank = n) (small : n ≤ 2 ^ 53) :
    d.value = n := by
  have natural := value_of_exponent (short.exponent_nonneg finite positive same)
  have inside := short.mem_range finite
  have some := pos_of_mem_range positive inside
  by_cases most : d.coefficient * 10 ^ d.exponent.toNat ≤ 2 ^ 53
  · rw [natural] at inside some
    rw [natural, ← same, (isMagnitude_of_le (Nat.cast_pos.mp some) most).absolute_eq inside]
  · -- the decimal would have as many digits as the number, which is nearer
    obtain ⟨rfl, next⟩ :=
      short.eq_of_exceeds finite positive same natural small (Nat.lt_of_not_le most)
    have places : d.exponent.toNat = 0 := by
      by_contra some
      have multiple := (dvd_pow_self 10 some).mul_left d.coefficient
      rw [next] at multiple
      exact absurd multiple (by decide)
    rw [places, Nat.pow_zero, Nat.mul_one] at next
    have one := (value_natural (2 ^ 53)).trans same.symm
    rw [← same]
    refine short.value_eq_of_few finite positive one ?_
    rw [next]
    decide +kernel

end Positive

end IsShortest

end Decimal

end Script
