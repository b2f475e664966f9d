import Script.Number

/-!
# Decimals and the shortest one that reads back

A `Decimal` is `coefficient * 10 ^ exponent`. `Number.shortest` gives the decimal with the
fewest digits among those that round to a number, and of several such the one nearest to it: for
one, two, … seventeen digits it tries the number's two neighbours on the grid of that many
digits, and the first grid with a hit wins. `Decimal.rank` rounds a decimal to a number, and
`Decimal.rank_eq_exactRank` says that it rounds the exact value.
-/

namespace Script

/-- The magnitude `coefficient * 10 ^ exponent`. -/
structure Decimal where
  coefficient : Nat
  exponent : Int
deriving DecidableEq, Repr

/-- A power of ten. -/
def powerOfTen (n : Nat) : Nat := Nat.pow 10 n

/-- How many decimal digits a natural number has. -/
def digitCount (n : Nat) : Nat := (Nat.toDigits 10 n).length

namespace Decimal

/-- The decimal digits of the coefficient. -/
def digits (d : Decimal) : List Char := Nat.toDigits 10 d.coefficient

/-- The power of ten of the first digit. -/
def magnitude (d : Decimal) : Int := d.exponent + digitCount d.coefficient - 1

/-- Moves the zeros that end a nonzero coefficient into the exponent. -/
def trimmed (coefficient : Nat) (exponent : Int) : Decimal :=
  if h : coefficient ≠ 0 ∧ coefficient % 10 = 0 then trimmed (coefficient / 10) (exponent + 1)
  else ⟨coefficient, exponent⟩
termination_by coefficient
decreasing_by omega

/-- The rank of the number nearest to a decimal, by its exact value. -/
def exactRank (d : Decimal) : Nat :=
  Number.nearestRank (d.coefficient * powerOfTen d.exponent.toNat) (powerOfTen (-d.exponent).toNat)

/-- The rank of the number nearest to a decimal. It is found without the exact value where a
glance at the exponent shows it to be infinite or zero. -/
def rank (d : Decimal) : Nat :=
  if d.coefficient = 0 then 0
  else if 400 < d.exponent then Number.infinityRank
  else if d.exponent + d.coefficient.log2 < -400 then 0
  else d.exactRank

theorem two_mul_shiftLeft_lt (n k : Nat) : 2 * (n <<< k) < 1 <<< (n.log2 + k + 2) := by
  have below := Nat.mul_lt_mul_of_pos_right (Nat.lt_log2_self (n := n)) (Nat.two_pow_pos k)
  rw [← Nat.pow_add] at below
  rw [Nat.shiftLeft_eq, Nat.one_shiftLeft, show n.log2 + k + 2 = n.log2 + 1 + k + 1 by omega,
    Nat.pow_succ]
  omega

theorem shiftLeft_le_powerOfTen (n : Nat) : 1 <<< (3 * n) ≤ powerOfTen n := by
  rw [Nat.one_shiftLeft, Nat.pow_mul]
  exact Nat.pow_le_pow_left (by decide) n

theorem powerOfTen_pos (n : Nat) : 0 < powerOfTen n := Nat.pow_pos (by decide)

/-- The glance at the exponent never changes the rank. -/
theorem rank_eq_exactRank (d : Decimal) : d.rank = d.exactRank := by
  obtain ⟨coefficient, exponent⟩ := d
  unfold rank exactRank
  dsimp only
  split
  · rename_i empty
    rw [empty, Nat.zero_mul, Number.nearestRank_eq_zero]
    rw [Nat.zero_mul, Nat.mul_zero]
    exact powerOfTen_pos _
  · rename_i nonzero
    split
    · rename_i far
      rw [show (-exponent).toNat = 0 by omega]
      refine (Number.nearestRank_eq_infinityRank (3 * exponent.toNat) (by omega) ?_).symm
      exact Nat.le_trans (shiftLeft_le_powerOfTen _) (Nat.le_mul_of_pos_left _ (by omega))
    · split
      · rename_i near
        rw [show exponent.toNat = 0 by omega, show powerOfTen 0 = 1 from rfl, Nat.mul_one,
          Number.nearestRank_eq_zero]
        calc 2 * (coefficient * Number.unitsPerOne)
            = 2 * (coefficient <<< 1074) := by
              rw [Number.unitsPerOne, Nat.shiftLeft_eq coefficient, Nat.one_shiftLeft]
          _ < 1 <<< (coefficient.log2 + 1074 + 2) := two_mul_shiftLeft_lt coefficient 1074
          _ ≤ 1 <<< (3 * (-exponent).toNat) := by
              rw [Nat.one_shiftLeft, Nat.one_shiftLeft]
              exact Nat.pow_le_pow_right (by decide) (by omega)
          _ ≤ powerOfTen (-exponent).toNat := shiftLeft_le_powerOfTen _
      · rfl

/-- The number nearest to a decimal with a sign. -/
def toNumber (negative : Bool) (d : Decimal) : Number := .ofRank negative d.rank

end Decimal

namespace Number

/-- Twice the least magnitude, in units, that rounds to a rank. -/
def lowerEnd (rank : Nat) : Nat := units (rank - 1) + units rank

/-- Twice the greatest magnitude, in units, that rounds to a rank. -/
def upperEnd (rank : Nat) : Nat := units rank + units (rank + 1)

/-- Whether `num / den` units round to a rank; the two ends do if the rank is even. -/
def roundsTo (rank num den : Nat) : Bool :=
  let low := lowerEnd rank * den
  let high := upperEnd rank * den
  if rank % 2 = 0 then decide (low ≤ 2 * num) && decide (2 * num ≤ high)
  else decide (low < 2 * num) && decide (2 * num < high)

/-- The power of ten of the first digit of a magnitude of `count` units. -/
def decimalMagnitude (count : Nat) : Int :=
  if unitsPerOne ≤ count then digitCount (count / unitsPerOne) - 1
  else -(digitCount ((unitsPerOne - 1) / count) : Int)

/-- The multiple of `10 ^ exponent` nearest to a rank's magnitude among those next to it that
round to the rank, if one does. A tie goes to the even multiple. -/
def onGrid? (rank : Nat) (exponent : Int) : Option Decimal :=
  let step := unitsPerOne * powerOfTen exponent.toNat
  let scale := powerOfTen (-exponent).toNat
  let target := units rank * scale
  let below := target / step
  let above := below + 1
  let hit (multiple : Nat) : Bool := roundsTo rank (multiple * step) scale
  let aboveIsNearer : Bool :=
    let down := target - below * step
    let up := above * step - target
    decide (up < down) || (decide (up = down) && decide (above % 2 = 0))
  if hit below && !(hit above && aboveIsNearer) then some ⟨below, exponent⟩
  else if hit above then some ⟨above, exponent⟩
  else none

/-- The most digits that a shortest decimal needs. -/
def maxDigits : Nat := 17

/-- The shortest decimal that rounds to a rank, and of those the nearest. -/
def shortest (rank : Nat) : Decimal :=
  if rank = 0 then ⟨0, 0⟩
  else
    let top := decimalMagnitude (units rank)
    match (List.range maxDigits).findSome? fun (n : Nat) => onGrid? rank (top - (n : Int)) with
    | some d => .trimmed d.coefficient d.exponent
    | none => ⟨units rank, 0⟩

end Number

end Script
