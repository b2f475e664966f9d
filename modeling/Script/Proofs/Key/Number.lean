import Mathlib
import Script.Proofs.Eval.Accesses
import Script.Proofs.Key
import Script.Proofs.Number.Whole
import Script.Proofs.Value.Display

/-!
# Numbers as keys

A number that is used as a key is printed first, and the text may name an index. It does exactly for
the whole numbers from zero to below `10 ^ 21`: only their texts have nothing but digits
(`Number.digits_display_iff`). The index is the shortest decimal of the number, so it rounds to the
number, and up to `2 ^ 53` it is the number.

* `Key.index_of_number`: all this for every number and every key.
-/

namespace Script

open Numeral

/-! ## Texts of digits only -/

/-- Zeros behind the digits of a positive number are digits of a number. -/
theorem Numeral.toDigits_mul_pow {n : Nat} (positive : 0 < n) (places : Nat) :
    Nat.toDigits 10 (n * 10 ^ places) = Nat.toDigits 10 n ++ List.replicate places '0' := by
  obtain ⟨c, rest, digits, leading⟩ := toDigits_eq_cons positive
  have all : ∀ d ∈ c :: (rest ++ List.replicate places '0'), isDigit d = true := by
    intro d member
    rw [← List.cons_append, ← digits] at member
    rcases List.mem_append.mp member with digit | zero
    · exact isDigit_of_mem_toDigits digit
    · exact Layout.isDigit_of_mem_zeros zero
  have whole := toDigits_natural all leading
  rw [← List.cons_append, ← digits, Layout.natural_append_zeros, natural_toDigits] at whole
  exact whole

theorem Numeral.Parts.Formed.digits_iff {parts : Parts} (formed : parts.Formed) :
    (∀ c ∈ parts.text, isDigit c = true) ↔ parts.fraction = [] ∧ parts.power = none := by
  constructor
  · intro all
    refine ⟨?_, ?_⟩
    · by_contra some
      have point : '.' ∈ parts.text := by
        unfold text
        rw [Layout.pointed_of_ne_nil some]
        simp
      cases all _ point
    · by_contra some
      cases all _ (formed.mem_mark_iff.mpr some)
  · rintro ⟨fraction, power⟩ c member
    unfold text at member
    rw [fraction, power, show pointed [] ++ marked none = [] from rfl, List.append_nil] at member
    exact formed.whole c member

namespace Layout

variable {d : Decimal}

/-- A whole decimal below `10 ^ 21` is printed as its digits and as many zeros as it needs. -/
theorem parts_of_whole (whole : 0 ≤ d.exponent) (high : d.magnitude ≤ 20) :
    display.parts 0 d = ⟨d.digits ++ List.replicate d.exponent.toNat '0', [], none⟩ := by
  have digits := digitCount_pos d.coefficient
  have low : -6 ≤ d.magnitude := by
    unfold Decimal.magnitude
    omega
  unfold parts plainParts
  rw [if_pos whole]
  exact if_pos ⟨low, high⟩

theorem fraction_plainParts_ne_nil {digits : List Char} (nonempty : digits ≠ []) {exponent : Int}
    (fractional : ¬ 0 ≤ exponent) : (plainParts 0 digits exponent).fraction ≠ [] := by
  unfold plainParts
  rw [if_neg fractional]
  simp only
  split
  · rw [Ne, List.drop_eq_nil_iff]
    omega
  · exact List.append_ne_nil_of_right_ne_nil _ nonempty

/-- A decimal is printed without a point and a power of ten if it is whole and below `10 ^ 21`. -/
theorem whole_parts_iff (d : Decimal) :
    ((display.parts 0 d).fraction = [] ∧ (display.parts 0 d).power = none) ↔
      0 ≤ d.exponent ∧ d.magnitude ≤ 20 := by
  constructor
  · rintro ⟨fraction, power⟩
    have inside := (power_parts _ _ _).mp power
    refine ⟨?_, inside.2⟩
    by_contra fractional
    unfold parts at fraction
    rw [if_pos inside] at fraction
    exact fraction_plainParts_ne_nil (digits_ne_nil d) fractional fraction
  · rintro ⟨whole, high⟩
    rw [parts_of_whole whole high]
    exact ⟨rfl, rfl⟩

end Layout

theorem Decimal.magnitude_le_iff {d : Decimal} (positive : 0 < d.coefficient) :
    d.magnitude ≤ 20 ↔ d.value < 10 ^ 21 := by
  obtain ⟨least, most⟩ := d.magnitude_bounds positive
  have ten : (1 : ℚ) < 10 := by norm_num
  constructor
  · intro small
    calc d.value < 10 ^ (d.magnitude + 1) := most
      _ ≤ 10 ^ (21 : Int) := zpow_le_zpow_right₀ ten.le (by omega)
      _ = 10 ^ 21 := by norm_num
  · intro less
    have below : (10 : ℚ) ^ d.magnitude < 10 ^ (21 : Int) := by
      refine least.trans_lt (less.trans_eq ?_)
      norm_num
    have := (zpow_lt_zpow_iff_right₀ ten).mp below
    omega

namespace Number

variable {x y : Number}

/-- A whole number from zero to below `10 ^ 21`. -/
def IsCount (x : Number) : Prop := x.isFinite = true ∧ ∃ n : Nat, x.value = n ∧ n < 10 ^ 21

/-! ## Which numbers are printed with digits only -/

theorem value_of_isZero (zero : x.isZero = true) : x.value = 0 := by
  have rank : x.rank = 0 := of_decide_eq_true zero
  have none : absolute 0 = 0 := by decide +kernel
  unfold value signed
  rw [rank, none, neg_zero, ite_self]

/-- A number other than zero is a count if its sign is not set and its magnitude is a count. -/
theorem isCount_iff (finite : x.isFinite = true) (nonzero : x.isZero = false) :
    x.IsCount ↔ x.negative = false ∧ (∃ n : Nat, absolute x.rank = n) ∧
      absolute x.rank < 10 ^ 21 := by
  have some : 0 < absolute x.rank := (absolute_nonneg 0).trans_lt
    (absolute_strictMono (Nat.pos_of_ne_zero (of_decide_eq_false nonzero)))
  unfold IsCount value signed
  cases x.negative with
  | true =>
    refine ⟨fun ⟨_, n, same, _⟩ => ?_, fun ⟨absent, _⟩ => by cases absent⟩
    rw [if_pos rfl] at same
    have positive : (0 : ℚ) ≤ n := Nat.cast_nonneg n
    linarith
  | false =>
    rw [if_neg Bool.false_ne_true]
    constructor
    · rintro ⟨_, n, same, less⟩
      refine ⟨rfl, ⟨n, same⟩, ?_⟩
      rw [same]
      exact_mod_cast less
    · rintro ⟨_, ⟨n, same⟩, less⟩
      refine ⟨finite, n, same, ?_⟩
      rw [same] at less
      exact_mod_cast less

theorem toList_display (finite : x.isFinite = true) (nonzero : x.isZero = false) :
    x.display.toList = minus x.negative ++ (Layout.display.parts 0 (shortest x.rank)).text := by
  unfold display
  rw [text_of_finite Layout.display_marksWith finite nonzero, String.toList_ofList]

theorem digits_display_iff_of_finite (finite : x.isFinite = true) (nonzero : x.isZero = false) :
    (∀ c ∈ x.display.toList, isDigit c = true) ↔ x.IsCount := by
  have below : x.rank < infinityRank := of_decide_eq_true finite
  have positive : 0 < x.rank := Nat.pos_of_ne_zero (of_decide_eq_false nonzero)
  have short := isShortest_of_finite finite nonzero
  have coefficient := Decimal.coefficient_pos positive (short.mem_range below)
  rw [isCount_iff finite nonzero, ← short.exponent_nonneg_iff below positive,
    ← short.value_lt_iff below positive, ← Decimal.magnitude_le_iff coefficient,
    ← Layout.whole_parts_iff, ← (Layout.formed_parts _ _ _).digits_iff,
    toList_display finite nonzero]
  cases x.negative with
  | true =>
    refine ⟨fun all => ?_, fun count => by cases count.1⟩
    cases all '-' List.mem_cons_self
  | false => exact ⟨fun all => ⟨rfl, all⟩, fun count => count.2⟩

/-- Exactly the whole numbers from zero to below `10 ^ 21` are printed with digits only. -/
theorem digits_display_iff (x : Number) :
    (∀ c ∈ x.display.toList, isDigit c = true) ↔ x.IsCount := by
  cases zero : x.isZero with
  | true =>
    have finite : x.isFinite = true := by
      unfold isFinite
      rw [of_decide_eq_true zero]
      decide
    rw [display_of_isZero zero]
    refine ⟨fun _ => ⟨finite, 0, ?_, by norm_num⟩, fun _ => ?_⟩
    · rw [value_of_isZero zero, Nat.cast_zero]
    · exact List.all_eq_true.mp (by decide)
  | false =>
    cases finite : x.isFinite with
    | true => exact digits_display_iff_of_finite finite zero
    | false =>
      -- the texts of the other numbers have letters
      refine ⟨fun all => ?_, fun count => absurd count.1 (by rw [finite]; decide)⟩
      cases infinite : x.isInfinite with
      | true =>
        rw [display_of_isInfinite infinite] at all
        split at all <;> cases all 'I' (by decide)
      | false =>
        have isNaN : x.isNaN = true := by
          have notLess : ¬ x.rank < infinityRank := of_decide_eq_false finite
          have notSame : ¬ x.rank = infinityRank := of_decide_eq_false infinite
          exact decide_eq_true (by omega)
        unfold display Layout.number at all
        rw [isNaN, if_pos rfl] at all
        cases all 'N' (by decide)

/-! ## The index -/

/-- A whole number is printed as its shortest decimal, which is whole. -/
theorem display_of_isCount (count : x.IsCount) :
    ∃ i : Nat, x.display = i.repr ∧ i < 10 ^ 21 ∧ (i : ℚ) = (shortest x.rank).value := by
  cases zero : x.isZero with
  | true =>
    refine ⟨0, display_of_isZero zero, by norm_num, ?_⟩
    rw [of_decide_eq_true zero]
    decide +kernel
  | false =>
    have finite := count.1
    have below : x.rank < infinityRank := of_decide_eq_true finite
    have positive : 0 < x.rank := Nat.pos_of_ne_zero (of_decide_eq_false zero)
    have short := isShortest_of_finite finite zero
    have coefficient := Decimal.coefficient_pos positive (short.mem_range below)
    obtain ⟨sign, whole, less⟩ := (isCount_iff finite zero).mp count
    rw [← short.exponent_nonneg_iff below positive] at whole
    rw [← short.value_lt_iff below positive] at less
    have high := (Decimal.magnitude_le_iff coefficient).mpr less
    have value := Decimal.value_of_exponent whole
    refine ⟨_, ?_, ?_, value.symm⟩
    · have text := toList_display finite zero
      rw [sign, show minus false = [] from rfl, List.nil_append] at text
      rw [← String.toList_inj, text, Nat.toList_repr, toDigits_mul_pow coefficient,
        Layout.parts_of_whole whole high]
      exact List.append_nil _
    · rw [value] at less
      exact_mod_cast less

/-- The index of a number rounds to the number. -/
theorem ofNat_index (count : x.IsCount) {i : Nat} (same : (i : ℚ) = (shortest x.rank).value) :
    ofNat i = x.dropZeroSign := by
  cases zero : x.isZero with
  | true =>
    rw [of_decide_eq_true zero, show (shortest 0).value = 0 by decide +kernel,
      Nat.cast_eq_zero] at same
    unfold dropZeroSign
    rw [same, zero, if_pos rfl]
    decide +kernel
  | false =>
    have below : x.rank < infinityRank := of_decide_eq_true count.1
    have short := isShortest_of_finite count.1 zero
    obtain ⟨sign, _⟩ := (isCount_iff count.1 zero).mp count
    have nearest : nearestRank i 1 = x.rank := by
      rw [nearestRank_eq_iff Nat.one_pos below, roundsTo_iff_mem_range Nat.one_pos, Nat.cast_one,
        div_one, same]
      exact short.mem_range below
    unfold ofNat
    rw [nearest, ← sign, ofRank_rank, dropZeroSign_of_ne zero]

/-- Up to `2 ^ 53` the index of a number is the number. -/
theorem index_eq_value (count : x.IsCount) {i : Nat} (same : (i : ℚ) = (shortest x.rank).value)
    (small : x.value ≤ 2 ^ 53) : (i : ℚ) = x.value := by
  cases zero : x.isZero with
  | true =>
    rw [same, of_decide_eq_true zero, value_of_isZero zero]
    decide +kernel
  | false =>
    have below : x.rank < infinityRank := of_decide_eq_true count.1
    have positive : 0 < x.rank := Nat.pos_of_ne_zero (of_decide_eq_false zero)
    obtain ⟨sign, ⟨n, whole⟩, _⟩ := (isCount_iff count.1 zero).mp count
    have value : x.value = n := by
      unfold Number.value signed
      rw [sign, if_neg Bool.false_ne_true, whole]
    rw [value] at small ⊢
    rw [same]
    exact (isShortest_of_finite count.1 zero).value_eq_of_le below positive whole
      (by exact_mod_cast small)

end Number

namespace Key

variable {key : String}

/-! ## Keys -/

theorem isDigits_of_long (long : Fault.maxKeyDigits < key.length) :
    isDigits key.toList = true ↔ ∀ c ∈ key.toList, isDigit c = true := by
  rw [isDigits_iff]
  refine ⟨fun digits => digits.2, fun all => ⟨?_, all⟩⟩
  rintro empty
  rw [← String.length_toList, empty] at long
  cases long

/-- A key of anything but digits names no index. -/
theorem index?_of_not_digits (mixed : ¬ ∀ c ∈ key.toList, isDigit c = true) :
    index? key = .ok none := by
  unfold index?
  simp only
  rw [if_neg fun digits => mixed (isDigits_iff.mp digits).2]

/-- A key that is not too long names an index or names none. -/
theorem index?_eq_none_iff (short : key.length ≤ Fault.maxKeyDigits) :
    index? key = .ok none ↔ ∀ i : Nat, key ≠ i.repr := by
  obtain ⟨index, found⟩ := exists_index?_of_short short
  rw [found]
  cases index with
  | none =>
    refine ⟨fun _ i same => ?_, fun _ => rfl⟩
    cases found.symm.trans (index?_eq_some_iff.mpr ⟨short, same⟩)
  | some i =>
    refine ⟨nofun, fun absent => ?_⟩
    exact absurd (index?_eq_some_iff.mp found).2 (absent i)

/-- A key that is too long is a fault exactly if it has nothing but digits. -/
theorem index?_of_long (long : Fault.maxKeyDigits < key.length) :
    (∀ fault, index? key = .error fault ↔
      (∀ c ∈ key.toList, isDigit c = true) ∧ fault = .longKey key.length) ∧
    (index? key = .ok none ↔ ¬ ∀ c ∈ key.toList, isDigit c = true) := by
  have refused : ∀ fault, index? key = .error fault ↔
      (∀ c ∈ key.toList, isDigit c = true) ∧ fault = .longKey key.length := by
    intro fault
    rw [index?_eq_error_iff, isDigits_of_long long, String.length_toList]
    exact and_congr_right fun _ => and_iff_right long
  refine ⟨refused, fun none digits => ?_, index?_of_not_digits⟩
  cases none.symm.trans ((refused _).mpr ⟨digits, rfl⟩)

/-! ## Numbers -/

variable {store : Store} {x : Number} {i : Nat}

theorem display_number (store : Store) (x : Number) : store.display (.number x) = x.display := by
  have plain : ∀ id, Value.number x ≠ .array id := nofun
  rw [Store.display_eq, Store.textAt_of_plain plain]
  rfl

/-- The index that a whole number names is its shortest decimal. -/
theorem exists_index?_of_isCount (count : x.IsCount) :
    ∃ i : Nat, index? x.display = .ok (some i) ∧ (i : ℚ) = (Number.shortest x.rank).value := by
  obtain ⟨i, text, less, same⟩ := Number.display_of_isCount count
  refine ⟨i, index?_eq_some_iff.mpr ⟨?_, text⟩, same⟩
  rw [text, ← String.length_toList, Nat.toList_repr]
  have digits : digitCount i ≤ 21 := digitCount_le_of_lt (by decide) less
  exact digits.trans (by decide)

/-- A number that names an index is whole, and the index is its shortest decimal. -/
theorem index?_display_iff : index? x.display = .ok (some i) ↔
    x.IsCount ∧ (i : ℚ) = (Number.shortest x.rank).value := by
  constructor
  · intro found
    have count : x.IsCount := by
      rw [← Number.digits_display_iff, (index?_eq_some_iff.mp found).2, Nat.toList_repr]
      exact fun c => isDigit_of_mem_toDigits
    obtain ⟨j, again, same⟩ := exists_index?_of_isCount count
    cases found.symm.trans again
    exact ⟨count, same⟩
  · rintro ⟨count, same⟩
    obtain ⟨j, found, again⟩ := exists_index?_of_isCount count
    rw [found, Nat.cast_injective (same.trans again.symm)]

/-- Numeric keys name the right elements. A key that is not too long names an index exactly if it is
the numeral of the index, and one that is too long is a fault exactly if it consists of digits. A
number names an index exactly if it is whole, not negative and below `10 ^ 21`, and nothing goes
wrong for other numbers. The index is converted back to the number, so different numbers name
different indices, and up to `2 ^ 53` the index is the number. -/
theorem index_of_number :
    (∀ key : String, key.length ≤ 4300 →
      (∀ i : Nat, index? key = .ok (some i) ↔ key = i.repr) ∧
      (index? key = .ok none ↔ ∀ i : Nat, key ≠ i.repr)) ∧
    (∀ key : String, 4300 < key.length →
      (∀ fault, index? key = .error fault ↔
        (∀ c ∈ key.toList, isDigit c = true) ∧ fault = .longKey key.length) ∧
      (index? key = .ok none ↔ ¬ ∀ c ∈ key.toList, isDigit c = true)) ∧
    (∀ (store : Store) (x : Number),
      ((∃ i, index? (store.display (.number x)) = .ok (some i)) ↔ x.IsCount) ∧
      (index? (store.display (.number x)) = .ok none ↔ ¬ x.IsCount)) ∧
    (∀ (store : Store) (x : Number) (i : Nat),
      index? (store.display (.number x)) = .ok (some i) →
      (Number.ofNat i).same x = true ∧ (x.isZero = false → Number.ofNat i = x) ∧
      (x.value ≤ 2 ^ 53 → (i : ℚ) = x.value) ∧
      ∀ y : Number, index? (store.display (.number y)) = .ok (some i) → x.same y = true) := by
  simp only [display_number]
  refine ⟨fun key short => ⟨fun i => ?_, index?_eq_none_iff short⟩,
    fun key long => index?_of_long long, fun _ x => ⟨?_, ?_⟩, fun _ x i found => ?_⟩
  · rw [index?_eq_some_iff]
    exact and_iff_right short
  · constructor
    · rintro ⟨i, found⟩
      exact (index?_display_iff.mp found).1
    · intro count
      obtain ⟨i, found, _⟩ := exists_index?_of_isCount count
      exact ⟨i, found⟩
  · rw [← Number.digits_display_iff]
    refine ⟨fun none digits => ?_, index?_of_not_digits⟩
    obtain ⟨i, found, _⟩ := exists_index?_of_isCount ((Number.digits_display_iff x).mp digits)
    cases none.symm.trans found
  · obtain ⟨count, same⟩ := index?_display_iff.mp found
    have back := Number.ofNat_index count same
    have again := Number.same_dropZeroSign (Number.not_isNaN_of_isFinite count.1)
    refine ⟨back ▸ again, fun nonzero => back.trans (Number.dropZeroSign_of_ne nonzero),
      Number.index_eq_value count same, fun y other => ?_⟩
    obtain ⟨otherCount, otherSame⟩ := index?_display_iff.mp other
    have otherBack := Number.ofNat_index otherCount otherSame
    have otherAgain := Number.same_dropZeroSign (Number.not_isNaN_of_isFinite otherCount.1)
    rw [← back] at again
    rw [← otherBack] at otherAgain
    exact Store.same_trans (Store.same_symm again) otherAgain

/-- The number `123456789012345683968`, which has more digits than are printed. -/
def longCount : Number := ⟨0x441AC53A7E04BCDA⟩

/-- It names the index that is printed, and no other number does. A key of one digit too many is a
fault. -/
theorem longCount_index :
    longCount.IsCount ∧ longCount.value = 123456789012345683968 ∧
    index? (Store.initial.display (.number longCount)) = .ok (some 123456789012345680000) ∧
    Number.ofNat 123456789012345680000 = longCount ∧
    (∀ y : Number, index? (Store.initial.display (.number y)) = .ok (some 123456789012345680000) →
      longCount.same y = true) ∧
    index? (String.ofList (List.replicate 4301 '7')) = .error (.longKey 4301) := by
  obtain ⟨short, long, whole, back⟩ := index_of_number
  have printed : longCount.display = (123456789012345680000 : Nat).repr := by decide +kernel
  have found : index? (Store.initial.display (.number longCount)) =
      .ok (some 123456789012345680000) := by
    rw [display_number, printed]
    exact ((short _ (by decide +kernel)).1 _).mpr rfl
  have count := (whole Store.initial longCount).1.mp ⟨_, found⟩
  obtain ⟨_, same, _, unique⟩ := back Store.initial longCount _ found
  have many : (String.ofList (List.replicate 4301 '7')).length = 4301 := by
    rw [String.length_ofList, List.length_replicate]
  refine ⟨count, by decide +kernel, found, same (by decide +kernel), unique, ?_⟩
  refine ((long _ (by rw [many]; decide)).1 _).mpr ⟨?_, by rw [many]⟩
  rw [String.toList_ofList]
  intro c member
  rw [List.eq_of_mem_replicate member]
  rfl

end Key

end Script
