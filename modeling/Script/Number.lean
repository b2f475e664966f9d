/-!
# Numbers

A number of the language is a binary64 pattern. The pattern without its sign bit is the number's
**rank**: ranks count the magnitudes upward, from `0` through the subnormals and the normals to
`infinityRank`, and every rank above that is a NaN. Each finite magnitude is a whole number of
*units* of `2 ^ (-1074)`, so text, words and comparisons are exact natural-number arithmetic;
only `+`, `-`, `*` and `/` use the machine's operations.

`nearestRank num den` is the rank of the number nearest to `num / den`, ties to the even rank.
With the quotient counted in units, a significand of at most `2 ^ 53` and the binade it lies in
add up to the rank, so a carry out of the significand needs no case of its own.
`nearestRank_eq_zero` and `nearestRank_eq_infinityRank` are the two ends of the range.

The bitwise operators read their operands as two's-complement words: the number is truncated
toward zero and taken modulo `2 ^ 32`; NaN and the infinities are the word `0`.
-/

namespace Script

/-- A number, held as its binary64 pattern. -/
structure Number where
  /-- Sign bit, eleven exponent bits and fifty-two fraction bits. -/
  bits : UInt64
deriving DecidableEq, Repr, Inhabited

namespace Number

/-! ## Patterns -/

/-- The machine number with this pattern. -/
def toFloat (x : Number) : Float := Float.ofBits x.bits

/-- The pattern of a machine number. -/
def ofFloat (x : Float) : Number := ⟨x.toBits⟩

/-- The pattern of which only the sign bit is set. -/
def signBit : Nat := 0x8000000000000000

/-- The pattern without its sign bit. -/
def rank (x : Number) : Nat := x.bits.toNat % signBit

/-- Whether the sign bit is set. -/
def negative (x : Number) : Bool := decide (signBit ≤ x.bits.toNat)

/-- How many ranks a binade has, one for every fraction. -/
def binadeSize : Nat := 0x10000000000000

/-- The rank of the two infinities. -/
def infinityRank : Nat := 2047 * binadeSize

/-- The number with a given sign and rank. -/
def ofRank (negative : Bool) (rank : Nat) : Number :=
  ⟨UInt64.ofNat (if negative then rank + signBit else rank)⟩

def zero : Number := ⟨0⟩

def nan : Number := ⟨0x7FF8000000000000⟩

def isNaN (x : Number) : Bool := decide (infinityRank < x.rank)

def isInfinite (x : Number) : Bool := decide (x.rank = infinityRank)

def isFinite (x : Number) : Bool := decide (x.rank < infinityRank)

/-- Both zeros are zero. -/
def isZero (x : Number) : Bool := decide (x.rank = 0)

/-- Zeros and NaN are the false numbers. -/
def isTruthy (x : Number) : Bool := !(x.isZero || x.isNaN)

/-! ## Exact magnitudes -/

/-- How many units make one. -/
def unitsPerOne : Nat := 1 <<< 1074

/-- The magnitude of a rank in units: a significand below `2 ^ 53`, doubled once for every
binade above the first. -/
def units (rank : Nat) : Nat :=
  if rank < binadeSize then rank
  else (rank % binadeSize + binadeSize) <<< (rank / binadeSize - 1)

/-- The whole part of a finite number, toward zero; `0` for NaN and the infinities. -/
def truncate (x : Number) : Int :=
  if x.isFinite then
    let whole : Int := (units x.rank / unitsPerOne : Nat)
    if x.negative then -whole else whole
  else 0

/-! ## Comparison -/

/-- The place of a number on the line; the two zeros share one. -/
def place (x : Number) : Int := if x.negative then -(x.rank : Int) else x.rank

/-- Equality of contents: the zeros are equal, and NaN equals nothing. -/
def same (x y : Number) : Bool := !x.isNaN && !y.isNaN && decide (x.place = y.place)

/-- Strict order; NaN is in no order with anything. -/
def less (x y : Number) : Bool := !x.isNaN && !y.isNaN && decide (x.place < y.place)

/-- Order; NaN is in no order with anything. -/
def atMost (x y : Number) : Bool := !x.isNaN && !y.isNaN && decide (x.place ≤ y.place)

/-! ## Arithmetic -/

/-- The number with the opposite sign. -/
def neg (x : Number) : Number := ⟨x.bits ^^^ 0x8000000000000000⟩

def add (x y : Number) : Number := ofFloat (x.toFloat + y.toFloat)

def sub (x y : Number) : Number := ofFloat (x.toFloat - y.toFloat)

def mul (x y : Number) : Number := ofFloat (x.toFloat * y.toFloat)

/-- Division is total: a nonzero number over a zero is the infinity of the product of their
signs, and zero over zero is NaN. -/
def div (x y : Number) : Number := ofFloat (x.toFloat / y.toFloat)

end Number

/-! ## Rounding a quotient -/

/-- The whole number nearest to `num / den`, a tie to the even one. -/
def roundedQuotient (num den : Nat) : Nat :=
  let quotient := num / den
  let remainder := num % den
  if 2 * remainder < den then quotient
  else if den < 2 * remainder then quotient + 1
  else quotient + quotient % 2

theorem roundedQuotient_eq_zero {num den : Nat} (small : 2 * num < den) :
    roundedQuotient num den = 0 := by
  have quotient : num / den = 0 := Nat.div_eq_of_lt (by omega)
  have remainder : num % den = num := Nat.mod_eq_of_lt (by omega)
  simp [roundedQuotient, quotient, remainder, small]

namespace Number

/-- The binade of a magnitude of `count` units, the subnormals and the first normal binade
being number `0`. -/
def binade (count : Nat) : Nat := count.log2 - 52

/-- The rank of the number nearest to `num / den`; what is too large is infinite. -/
def nearestRank (num den : Nat) : Nat :=
  let scaled := num * unitsPerOne
  let above := binade (scaled / den)
  min infinityRank (above * binadeSize + roundedQuotient scaled (den <<< above))

/-- What is less than half a unit rounds to zero. -/
theorem nearestRank_eq_zero {num den : Nat} (small : 2 * (num * unitsPerOne) < den) :
    nearestRank num den = 0 := by
  have quotient : num * unitsPerOne / den = 0 := Nat.div_eq_of_lt (by omega)
  have lowest : binade 0 = 0 := by decide
  simp [nearestRank, quotient, lowest, roundedQuotient_eq_zero small]

/-- What is at least a power of two beyond all numbers is infinite. -/
theorem nearestRank_eq_infinityRank {num : Nat} (power : Nat) (high : 1025 ≤ power)
    (large : 1 <<< power ≤ num) : nearestRank num 1 = infinityRank := by
  have scaled : 1 <<< (power + 1074) ≤ num * unitsPerOne := by
    rw [Nat.shiftLeft_add, Nat.shiftLeft_eq (1 <<< power), unitsPerOne, Nat.one_shiftLeft 1074]
    exact Nat.mul_le_mul_right _ large
  rw [Nat.one_shiftLeft] at scaled
  have nonzero : num * unitsPerOne ≠ 0 :=
    Nat.ne_of_gt (Nat.lt_of_lt_of_le (Nat.two_pow_pos _) scaled)
  have above : 2047 ≤ binade (num * unitsPerOne) := by
    have := (Nat.le_log2 nonzero).mpr scaled
    unfold binade
    omega
  have rank : infinityRank ≤ binade (num * unitsPerOne) * binadeSize :=
    Nat.mul_le_mul_right _ above
  simp only [nearestRank, Nat.div_one]
  omega

/-- The number nearest to a whole number. -/
def ofInt (n : Int) : Number := ofRank (decide (n < 0)) (nearestRank n.natAbs 1)

/-- The number nearest to a count. -/
def ofNat (n : Nat) : Number := ofRank false (nearestRank n 1)

/-! ## Words of 32 bits -/

/-- The word of a number. -/
def toWord (x : Number) : Int32 := Int32.ofInt x.truncate

/-- The number of a word, which is always exact. -/
def ofWord (w : Int32) : Number := ofInt w.toInt

/-- Bitwise conjunction of words. -/
def bitAnd (x y : Number) : Number := ofWord (x.toWord &&& y.toWord)

/-- Bitwise disjunction of words. -/
def bitOr (x y : Number) : Number := ofWord (x.toWord ||| y.toWord)

end Number

end Script
