import Mathlib
import Script.Number
import Script.Proofs.Number.Display
import Script.Proofs.Number.Whole
import Script.Value.Operation

/-!
# Words are exact

The bitwise operators see a number as a word of 32 bits: the number without its fraction, modulo
`2 ^ 32`, in the range of signed words. What they give is a whole number of that range again, and
every such number is a double.

* `toInt_toWord_iff`: which integer the word of a number is.
* `value_ofInt`: small integers are numbers.
* `toInt_and`, `toInt_or`: operating on words of 32 bits is operating on integers of any length.
* `bitwise_operators_are_exact`: all of it together.
-/

namespace Script.Number

/-! ## Values -/

/-- A value without its fraction. -/
def towardZero (q : ℚ) : ℤ := if 0 ≤ q then ⌊q⌋ else ⌈q⌉

theorem towardZero_neg {q : ℚ} (nonneg : 0 ≤ q) : towardZero (-q) = -⌊q⌋ := by
  unfold towardZero
  split
  · rename_i other
    have zero : q = 0 := le_antisymm (neg_nonneg.mp other) nonneg
    rw [zero, neg_zero, Int.floor_zero, neg_zero]
  · exact Int.ceil_neg

theorem floor_absolute (rank : Nat) : ⌊absolute rank⌋ = (units rank / unitsPerOne : Nat) := by
  unfold absolute
  rw [Rat.floor_natCast_div_natCast, Int.natCast_ediv]

/-- Truncating drops the fraction of the value. -/
theorem truncate_eq {x : Number} (finite : x.isFinite = true) :
    x.truncate = towardZero x.value := by
  have nonneg := absolute_nonneg x.rank
  unfold truncate value signed
  rw [if_pos finite, ← floor_absolute]
  simp only
  split
  · exact (towardZero_neg nonneg).symm
  · exact (if_pos nonneg).symm

/-! ## Which integer a word is -/

/-- The range of signed words. -/
def IsWord (n : ℤ) : Prop := -2 ^ 31 ≤ n ∧ n < 2 ^ 31

theorem isWord_toInt (w : Int32) : IsWord w.toInt := ⟨w.le_toInt, w.toInt_lt⟩

/-- In the range of words, a residue belongs to one integer only. -/
theorem IsWord.eq_of_modEq {m n : ℤ} (one : IsWord m) (other : IsWord n)
    (same : m ≡ n [ZMOD 2 ^ 32]) : m = n := by
  unfold IsWord at one other
  unfold Int.ModEq at same
  omega

theorem toInt_toWord_modEq (x : Number) : x.toWord.toInt ≡ x.truncate [ZMOD 2 ^ 32] := by
  unfold toWord
  rw [Int32.toInt_ofInt]
  exact Int.bmod_emod

/-- The word of a number is the integer of the range that the truncated number is congruent to. -/
theorem toInt_toWord_iff {x : Number} {n : ℤ} :
    n = x.toWord.toInt ↔ IsWord n ∧ n ≡ x.truncate [ZMOD 2 ^ 32] := by
  constructor
  · rintro rfl
    exact ⟨isWord_toInt _, x.toInt_toWord_modEq⟩
  · rintro ⟨inside, same⟩
    exact inside.eq_of_modEq (isWord_toInt _) (same.trans x.toInt_toWord_modEq.symm)

theorem toInt_toWord_of_not_finite {x : Number} (infinite : x.isFinite = false) :
    x.toWord.toInt = 0 := by
  have zero : x.truncate = 0 := if_neg (Bool.eq_false_iff.mp infinite)
  unfold toWord
  rw [zero]
  rfl

/-! ## Integers as numbers -/

theorem rank_ofRank (negative : Bool) {rank : Nat} (small : rank < signBit) :
    (ofRank negative rank).rank = rank := by
  unfold ofRank Number.rank
  rw [UInt64.toNat_ofNat']
  unfold signBit at *
  cases negative
  · simp only [Bool.false_eq_true, if_false]
    omega
  · simp only [if_true]
    omega

theorem negative_ofRank (negative : Bool) {rank : Nat} (small : rank < signBit) :
    (ofRank negative rank).negative = negative := by
  unfold ofRank Number.negative
  rw [UInt64.toNat_ofNat']
  unfold signBit at *
  cases negative
  · simp only [Bool.false_eq_true, if_false, decide_eq_false_iff_not]
    omega
  · simp only [if_true, decide_eq_true_eq]
    omega

theorem absolute_zero : absolute 0 = 0 := by
  unfold absolute
  rw [show units 0 = 0 from rfl, Nat.cast_zero, zero_div]

/-- No magnitude up to `2 ^ 53` is that of an infinity. -/
theorem lt_infinityRank_of_absolute_le {rank : Nat} (small : absolute rank ≤ 2 ^ 53) :
    rank < infinityRank := by
  have large : (2 : ℚ) ^ 53 < absolute infinityRank := by decide +kernel
  exact absolute_strictMono.lt_iff_lt.mp (small.trans_lt large)

/-- A natural number up to `2 ^ 53` is a magnitude, and rounding finds its rank. -/
theorem absolute_nearestRank {n : Nat} (small : n ≤ 2 ^ 53) :
    nearestRank n 1 < infinityRank ∧ absolute (nearestRank n 1) = n := by
  rcases Nat.eq_zero_or_pos n with rfl | positive
  · rw [nearestRank_eq_zero (by decide)]
    exact ⟨by decide, by rw [absolute_zero, Nat.cast_zero]⟩
  · obtain ⟨some, rank, same⟩ := isMagnitude_of_le positive small
    have finite : rank < infinityRank := by
      apply lt_infinityRank_of_absolute_le
      rw [same]
      exact_mod_cast small
    have nonzero : 0 < rank := by
      apply Nat.pos_of_ne_zero
      rintro rfl
      rw [absolute_zero] at same
      exact some.ne same
    have found : nearestRank n 1 = rank := by
      rw [nearestRank_eq_iff Nat.one_pos finite, roundsTo_iff_mem_range Nat.one_pos,
        Nat.cast_one, div_one, ← same]
      exact absolute_mem_range nonzero
    rw [found]
    exact ⟨finite, same⟩

/-- An integer up to `2 ^ 53` is a number. -/
theorem value_ofInt {n : ℤ} (small : n.natAbs ≤ 2 ^ 53) :
    (ofInt n).isFinite = true ∧ (ofInt n).value = n := by
  obtain ⟨finite, same⟩ := absolute_nearestRank small
  have below : nearestRank n.natAbs 1 < signBit := finite.trans (by decide)
  unfold isFinite value signed ofInt
  rw [rank_ofRank _ below, negative_ofRank _ below, same]
  refine ⟨decide_eq_true finite, ?_⟩
  by_cases less : n < 0
  · rw [decide_eq_true less, if_pos rfl, ← Int.cast_natCast, ← Int.cast_neg]
    congr 1
    omega
  · rw [decide_eq_false less, if_neg Bool.false_ne_true, ← Int.cast_natCast]
    congr 1
    omega

theorem IsWord.natAbs_le {n : ℤ} (inside : IsWord n) : n.natAbs ≤ 2 ^ 53 := by
  unfold IsWord at inside
  omega

theorem towardZero_intCast (n : ℤ) : towardZero n = n := by
  unfold towardZero
  rw [Int.floor_intCast, Int.ceil_intCast, ite_self]

/-- A word is read back from its number. -/
theorem toWord_ofWord (w : Int32) : (ofWord w).toWord = w := by
  obtain ⟨finite, same⟩ := value_ofInt (isWord_toInt w).natAbs_le
  unfold toWord ofWord
  rw [truncate_eq finite, same, towardZero_intCast, Int32.ofInt_toInt]

/-! ## Operating on words -/

section

variable {w : Nat} (x y : BitVec w)

/-- A word whose sign bit is set is a negative integer, which the complement counts down from. -/
theorem toInt_eq_of_msb (negative : x.msb = true) : x.toInt = Int.negSucc (~~~x).toNat := by
  have least : 1 + x.toNat ≤ 2 ^ w := by
    have less := x.isLt
    omega
  rw [BitVec.toInt_eq_msb_cond, if_pos negative, BitVec.toNat_not, Int.negSucc_eq, Nat.sub_sub,
    Nat.cast_sub least]
  push_cast
  omega

theorem toInt_eq_of_not_msb (nonneg : x.msb = false) : x.toInt = x.toNat := by
  rw [BitVec.toInt_eq_msb_cond, nonneg]
  rfl

/-- Taking away the bits of a complement is taking the bits in common. -/
theorem ldiff_not : Nat.ldiff x.toNat (~~~y).toNat = (x &&& y).toNat := by
  apply Nat.eq_of_testBit_eq
  intro i
  rw [Nat.testBit_ldiff, BitVec.testBit_toNat, BitVec.testBit_toNat, BitVec.testBit_toNat,
    BitVec.getLsbD_not, BitVec.getLsbD_and]
  by_cases inside : i < w
  · simp [inside]
  · simp [BitVec.getLsbD_of_ge x i (Nat.not_lt.mp inside)]

/-- The bits that two words have in common are those that the two integers have in common. -/
theorem toInt_and : (x &&& y).toInt = Int.land x.toInt y.toInt := by
  have sign : (x &&& y).msb = (x.msb && y.msb) := BitVec.msb_and
  cases left : x.msb <;> cases right : y.msb <;> rw [left, right] at sign
  · rw [toInt_eq_of_not_msb _ sign, toInt_eq_of_not_msb x left, toInt_eq_of_not_msb y right,
      BitVec.toNat_and]
    rfl
  · rw [toInt_eq_of_not_msb _ sign, toInt_eq_of_not_msb x left, toInt_eq_of_msb y right,
      ← ldiff_not]
    rfl
  · rw [toInt_eq_of_not_msb _ sign, toInt_eq_of_msb x left, toInt_eq_of_not_msb y right,
      BitVec.and_comm, ← ldiff_not]
    rfl
  · rw [toInt_eq_of_msb _ sign, toInt_eq_of_msb x left, toInt_eq_of_msb y right, BitVec.not_and,
      BitVec.toNat_or]
    rfl

/-- The bits that one of two words has are those that one of the two integers has. -/
theorem toInt_or : (x ||| y).toInt = Int.lor x.toInt y.toInt := by
  have sign : (x ||| y).msb = (x.msb || y.msb) := BitVec.msb_or
  cases left : x.msb <;> cases right : y.msb <;> rw [left, right] at sign
  · rw [toInt_eq_of_not_msb _ sign, toInt_eq_of_not_msb x left, toInt_eq_of_not_msb y right,
      BitVec.toNat_or]
    rfl
  · rw [toInt_eq_of_msb _ sign, toInt_eq_of_not_msb x left, toInt_eq_of_msb y right,
      BitVec.not_or, BitVec.and_comm, ← ldiff_not, BitVec.not_not]
    rfl
  · rw [toInt_eq_of_msb _ sign, toInt_eq_of_msb x left, toInt_eq_of_not_msb y right,
      BitVec.not_or, ← ldiff_not, BitVec.not_not]
    rfl
  · rw [toInt_eq_of_msb _ sign, toInt_eq_of_msb x left, toInt_eq_of_msb y right, BitVec.not_or,
      BitVec.toNat_and]
    rfl

end

/-- The residue of a number modulo `2 ^ 32`; that of NaN and the infinities is zero. -/
def residue (x : Number) : Nat := (x.toWord.toInt % 2 ^ 32).toNat

theorem residue_eq (x : Number) : x.residue = x.toWord.toBitVec.toNat := by
  unfold residue
  rw [← Int32.toInt_toBitVec, BitVec.toInt_eq_toNat_bmod]
  have less := x.toWord.toBitVec.isLt
  have same : (x.toWord.toBitVec.toNat : ℤ).bmod (2 ^ 32) % (2 ^ 32 : Nat) =
      x.toWord.toBitVec.toNat % (2 ^ 32 : Nat) := Int.bmod_emod
  omega

/-- A binary operator works on words: on residues as an operation on natural numbers does, and on
the words as an operation on integers does. Its results are exact, and it sees nothing of a number
but its word. -/
structure CombinesWords (operator : BinaryOp) (onResidues : ℕ → ℕ → ℕ) (onIntegers : ℤ → ℤ → ℤ)
    (result : Number → Number → Number) : Prop where
  computes : ∀ (store : Store) (a b : Number),
    store.binary operator (.number a) (.number b) = .ok (.number (result a b))
  finite : ∀ a b, (result a b).isFinite = true
  /-- The value of the result is its word. -/
  exact : ∀ a b, (result a b).value = (result a b).toWord.toInt
  isWord : ∀ a b, IsWord (result a b).toWord.toInt
  residues : ∀ a b,
    (result a b).toWord.toInt ≡ onResidues a.residue b.residue [ZMOD 2 ^ 32]
  integers : ∀ a b,
    (result a b).toWord.toInt = onIntegers a.toWord.toInt b.toWord.toInt
  depends : ∀ a b c d : Number, a.toWord.toInt = c.toWord.toInt → b.toWord.toInt = d.toWord.toInt →
    result a b = result c d

/-- What combines words bit by bit is exact. -/
theorem combinesWords {operator : BinaryOp} {onResidues : ℕ → ℕ → ℕ} {onIntegers : ℤ → ℤ → ℤ}
    {onWords : Int32 → Int32 → Int32}
    (computes : ∀ (store : Store) (a b : Number), store.binary operator (.number a) (.number b) =
      .ok (.number (ofWord (onWords a.toWord b.toWord))))
    (residues : ∀ v w, (onWords v w).toBitVec.toNat = onResidues v.toBitVec.toNat w.toBitVec.toNat)
    (integers : ∀ v w, (onWords v w).toInt = onIntegers v.toInt w.toInt) :
    CombinesWords operator onResidues onIntegers
      fun a b => ofWord (onWords a.toWord b.toWord) where
  computes := computes
  finite := fun _ _ => (value_ofInt (isWord_toInt _).natAbs_le).1
  exact := fun _ _ => by
    rw [toWord_ofWord]
    exact (value_ofInt (isWord_toInt _).natAbs_le).2
  isWord := fun _ _ => isWord_toInt _
  residues := fun a b => by
    rw [toWord_ofWord, residue_eq, residue_eq, ← residues, ← Int32.toInt_toBitVec,
      BitVec.toInt_eq_toNat_bmod]
    exact Int.bmod_emod
  integers := fun _ _ => by rw [toWord_ofWord, integers]
  depends := fun a b c d one other => by
    rw [Int32.toInt_inj.mp one, Int32.toInt_inj.mp other]

/-- The bitwise operators are exact arithmetic of signed words of 32 bits. The word of a finite
number is the one integer from `-2 ^ 31` to below `2 ^ 31` that is congruent to the number without
its fraction, and that of NaN and the infinities is zero; `&` and `|` give the bits that both words
have and those that one of them has. -/
theorem bitwise_operators_are_exact :
    (∀ x : Number, x.isFinite = true → ∀ n : ℤ, n = x.toWord.toInt ↔
      (-2 ^ 31 ≤ n ∧ n < 2 ^ 31) ∧ n ≡ towardZero x.value [ZMOD 2 ^ 32]) ∧
    (∀ x : Number, x.isFinite = false → x.toWord.toInt = 0) ∧
    CombinesWords .bitAnd (· &&& ·) Int.land bitAnd ∧
    CombinesWords .bitOr (· ||| ·) Int.lor bitOr := by
  refine ⟨?_, fun _ => toInt_toWord_of_not_finite, ?_, ?_⟩
  · intro x finite n
    rw [← truncate_eq finite]
    exact toInt_toWord_iff
  · exact combinesWords (fun _ _ _ => rfl) (fun v w => BitVec.toNat_and v.toBitVec w.toBitVec)
      (fun v w => toInt_and v.toBitVec w.toBitVec)
  · exact combinesWords (fun _ _ _ => rfl) (fun v w => BitVec.toNat_or v.toBitVec w.toBitVec)
      (fun v w => toInt_or v.toBitVec w.toBitVec)

/-- `-4294967301.75`, which is five less than `-2 ^ 32` without its fraction. -/
def wrapped : Number := ⟨0xC1F00000005C0000⟩

/-- It is the word `-5`, and has no bit of four. -/
theorem wrapped_word : wrapped.value = -17179869207 / 4 ∧ wrapped.toWord.toInt = -5 ∧
    (bitAnd wrapped (ofInt 6)).value = 2 ∧ (bitOr wrapped (ofInt 6)).value = -1 ∧
    nan.toWord.toInt = 0 := by
  obtain ⟨word, absent, both, either⟩ := bitwise_operators_are_exact
  have exactly : wrapped.value = -17179869207 / 4 := by decide +kernel
  have same := word wrapped (by decide +kernel) (-5)
  refine ⟨exactly, ?_, ?_, ?_, absent nan (by decide)⟩
  · refine (same.mpr ⟨by decide, ?_⟩).symm
    rw [exactly]
    decide +kernel
  · rw [both.exact]
    decide +kernel
  · rw [either.exact]
    decide +kernel

end Script.Number
