import Mathlib
import Script.Proofs.Number.Text
import Script.Proofs.Print.Compile

/-!
# Printed numbers are exact

The text that is printed for a number denotes the shortest decimal that rounds to it, as the text in
trees does. So it is read back as the number, and two numbers are printed alike only if they are the
two zeros. Without a sign and a power of ten the text is a numeral of the language.

* `display_exact`: all this for every number.
-/

namespace Script

open Numeral

/-- The rational that a decimal text denotes. -/
def Numeral.denotation? (text : String) : Option ℚ :=
  let (negative, body) := splitSign text.toList
  (decimal? body).map fun d => if negative then -d.value else d.value

/-- A decimal text without a zero too many. -/
def Numeral.IsTidy (text : String) : Prop :=
  ∃ (negative : Bool) (parts : Parts), parts.Formed ∧ parts.Tidy ∧
    text = String.ofList (minus negative ++ parts.text)

theorem Numeral.denotation?_text (negative : Bool) {parts : Parts} (formed : parts.Formed) :
    denotation? (String.ofList (minus negative ++ parts.text)) =
      some (if negative then -parts.decimal.value else parts.decimal.value) := by
  obtain ⟨c, rest, same, digit⟩ := formed.starts
  unfold denotation?
  rw [String.toList_ofList, same, splitSign_minus negative rest digit]
  simp only
  rw [← same, Parts.decimal?_text formed]
  rfl

/-- The first digit of a decimal has the place that `magnitude` says. -/
theorem Decimal.magnitude_bounds {d : Decimal} (positive : 0 < d.coefficient) :
    10 ^ d.magnitude ≤ d.value ∧ d.value < 10 ^ (d.magnitude + 1) := by
  have least := powerOfTen_le_of_digitCount positive
  have most := lt_powerOfTen_digitCount d.coefficient
  have digits := digitCount_pos d.coefficient
  rw [powerOfTen_eq] at least most
  unfold magnitude value
  generalize digitCount d.coefficient = count at *
  have unit := (zpow_ten_pos d.exponent)
  constructor
  · rw [show d.exponent + count - 1 = d.exponent + (count - 1 : Nat) by omega,
      ← pow_mul_zpow_ten]
    exact mul_le_mul_of_nonneg_right (Nat.cast_le.mpr least) unit.le
  · rw [Int.sub_add_cancel, ← pow_mul_zpow_ten]
    exact mul_lt_mul_of_pos_right (Nat.cast_lt.mpr most) unit

namespace Number

/-! ## Signs and ranks -/

/-- A number is its sign and its rank. -/
theorem ofRank_rank (x : Number) : ofRank x.negative x.rank = x := by
  obtain ⟨bits⟩ := x
  have small : bits.toNat < 2 * signBit := bits.toNat_lt
  have whole : (if negative ⟨bits⟩ = true then rank ⟨bits⟩ + signBit else rank ⟨bits⟩) =
      bits.toNat := by
    unfold negative rank signBit at *
    simp only [decide_eq_true_eq]
    split <;> omega
  unfold ofRank
  rw [whole, UInt64.ofNat_toNat]

/-- A value with the sign of a number. -/
def signed (x : Number) (value : ℚ) : ℚ := if x.negative then -value else value

/-- The value of a finite number. -/
def value (x : Number) : ℚ := x.signed (absolute x.rank)

theorem abs_signed (x : Number) {value : ℚ} (positive : 0 ≤ value) : |x.signed value| = value := by
  unfold signed
  split
  · rw [abs_neg, abs_of_nonneg positive]
  · exact abs_of_nonneg positive

/-- The number that is left when the sign of a zero is not written. -/
def dropZeroSign (x : Number) : Number := if x.isZero then .zero else x

/-! ## The text of a number -/

variable {x y : Number}

theorem not_isNaN_of_isFinite (finite : x.isFinite = true) : x.isNaN = false :=
  decide_eq_false (Nat.lt_asymm (of_decide_eq_true finite))

/-- The text of a number is its sign and the parts of its shortest decimal, whatever the layout. -/
theorem text_of_finite {layout : Layout} {zeros : Nat} (marks : layout.MarksWith zeros)
    (finite : x.isFinite = true) (nonzero : x.isZero = false) :
    layout.number x =
      String.ofList (minus x.negative ++ (layout.parts zeros (shortest x.rank)).text) := by
  have bounded : x.isInfinite = false := decide_eq_false (Nat.ne_of_lt (of_decide_eq_true finite))
  unfold Layout.number
  simp only [not_isNaN_of_isFinite finite, bounded, nonzero, Bool.not_false, Bool.or_true,
    Bool.and_true]
  rw [Layout.decimal_eq marks, String.ofList_append]
  cases x.negative with
  | true => rfl
  | false =>
    rw [show minus false = [] from rfl, String.ofList_nil, String.empty_append]
    rfl

/-- The text of a number denotes its shortest decimal, whatever the layout. -/
theorem denotation?_of_finite {layout : Layout} {zeros : Nat} (marks : layout.MarksWith zeros)
    (finite : x.isFinite = true) (nonzero : x.isZero = false) :
    denotation? (layout.number x) = some (x.signed (shortest x.rank).value) := by
  rw [text_of_finite marks finite nonzero,
    denotation?_text x.negative (layout.formed_parts zeros _), Layout.value_parts]
  rfl

theorem isShortest_of_finite (finite : x.isFinite = true) (nonzero : x.isZero = false) :
    (shortest x.rank).IsShortest x.rank :=
  shortest_isShortest (Nat.pos_of_ne_zero (of_decide_eq_false nonzero)) (of_decide_eq_true finite)

/-- The text of a number is read back as the number, whatever the layout. -/
theorem number?_of_finite {layout : Layout} {zeros : Nat} (marks : layout.MarksWith zeros)
    (finite : x.isFinite = true) (nonzero : x.isZero = false) :
    number? (layout.number x) = some x := by
  have below : x.rank < infinityRank := of_decide_eq_true finite
  have rounds := (isShortest_of_finite finite nonzero).rounds
  rw [Decimal.rank_eq_iff below, ← layout.value_parts zeros, ← Decimal.rank_eq_iff below] at rounds
  rw [text_of_finite marks finite nonzero, Parts.number?_text _ (layout.formed_parts zeros _)]
  unfold Decimal.toNumber
  rw [rounds, ofRank_rank]

theorem not_mem_minus (negative : Bool) : 'e' ∉ minus negative := by cases negative <;> decide

/-- A number is printed without a power of ten exactly if its decimal is neither too small nor too
large. -/
theorem not_mem_display_iff (finite : x.isFinite = true) (nonzero : x.isZero = false) :
    'e' ∉ x.display.toList ↔
      10 ^ (-6 : Int) ≤ (shortest x.rank).value ∧ (shortest x.rank).value < 10 ^ (21 : Int) := by
  have trimmed := (isShortest_of_finite finite nonzero).trimmed
  unfold display
  rw [text_of_finite Layout.display_marksWith finite nonzero, String.toList_ofList,
    List.mem_append, not_or, (Layout.formed_parts _ _ _).mem_mark_iff, not_not,
    Layout.power_parts]
  generalize shortest x.rank = d at *
  obtain ⟨least, most⟩ := d.magnitude_bounds (by omega)
  have ten : (1 : ℚ) < 10 := by norm_num
  show _ ∧ (-6 ≤ d.magnitude ∧ d.magnitude ≤ 20) ↔ _
  constructor
  · rintro ⟨_, low, high⟩
    exact ⟨(zpow_le_zpow_right₀ ten.le low).trans least,
      most.trans_le (zpow_le_zpow_right₀ ten.le (by omega))⟩
  · rintro ⟨low, high⟩
    have above := (zpow_lt_zpow_iff_right₀ ten).mp (low.trans_lt most)
    have below := (zpow_lt_zpow_iff_right₀ ten).mp (least.trans_lt high)
    exact ⟨not_mem_minus _, by omega, by omega⟩

theorem isTidy_display (finite : x.isFinite = true) (nonzero : x.isZero = false) :
    IsTidy x.display :=
  ⟨x.negative, _, Layout.formed_parts _ _ _,
    Layout.tidy_parts (isShortest_of_finite finite nonzero).trimmed,
    text_of_finite Layout.display_marksWith finite nonzero⟩

/-- A tidy text does not end in a point and a zero. -/
theorem not_suffix_of_isTidy {text : String} (tidy : IsTidy text) :
    ¬ ['.', '0'] <:+ text.toList := by
  obtain ⟨negative, parts, formed, tidyParts, rfl⟩ := tidy
  rw [String.toList_ofList]
  have body := tidyParts.not_suffix formed
  cases negative with
  | false => exact body
  | true =>
    intro ends
    rcases List.suffix_cons_iff.mp ends with same | within
    · cases same
    · exact body within

/-! ## Reading back -/

theorem display_of_isZero (zero : x.isZero = true) : x.display = "0" := by
  have rank : x.rank = 0 := of_decide_eq_true zero
  have isNumber : x.isNaN = false := decide_eq_false (by rw [rank]; decide)
  have bounded : x.isInfinite = false := decide_eq_false (by rw [rank]; decide)
  unfold display Layout.number
  rw [isNumber, bounded, zero, rank, show shortest 0 = ⟨0, 0⟩ from rfl]
  cases x.negative <;> rfl

theorem display_of_isInfinite (infinite : x.isInfinite = true) :
    x.display = if x.negative then "-Infinity" else "Infinity" := by
  have rank : x.rank = infinityRank := of_decide_eq_true infinite
  have isNumber : x.isNaN = false := decide_eq_false (by rw [rank]; exact Nat.lt_irrefl _)
  have nonzero : x.isZero = false := decide_eq_false (by rw [rank]; decide)
  unfold display Layout.number
  rw [isNumber, infinite, nonzero]
  cases x.negative <;> rfl

/-- What is printed is read back, but for the sign of a zero. -/
theorem number?_display (isNumber : x.isNaN = false) :
    number? x.display = some x.dropZeroSign := by
  unfold dropZeroSign
  cases zero : x.isZero with
  | true =>
    rw [display_of_isZero zero, if_pos rfl]
    decide +kernel
  | false =>
    rw [if_neg Bool.false_ne_true]
    cases finite : x.isFinite with
    | true => exact number?_of_finite Layout.display_marksWith finite zero
    | false =>
      have notLess : ¬ x.rank < infinityRank := of_decide_eq_false finite
      have notMore : ¬ infinityRank < x.rank := of_decide_eq_false isNumber
      have rank : x.rank = infinityRank := by omega
      have same := ofRank_rank x
      rw [rank] at same
      rw [display_of_isInfinite (decide_eq_true rank), ← same]
      cases x.negative <;> decide +kernel

theorem isZero_dropZeroSign (x : Number) : x.dropZeroSign.isZero = x.isZero := by
  unfold dropZeroSign
  cases zero : x.isZero with
  | true => rfl
  | false => exact zero

theorem dropZeroSign_of_ne (nonzero : x.isZero = false) : x.dropZeroSign = x := by
  unfold dropZeroSign
  rw [nonzero]
  rfl

/-- The sign of a zero takes no part in comparisons. -/
theorem same_dropZeroSign (isNumber : x.isNaN = false) : x.dropZeroSign.same x = true := by
  cases zero : x.isZero with
  | true =>
    have place : x.place = 0 := by
      unfold Number.place
      rw [of_decide_eq_true zero]
      split <;> rfl
    have dropped : x.dropZeroSign = .zero := by
      unfold dropZeroSign
      rw [zero]
      rfl
    unfold same
    rw [dropped, isNumber, place]
    decide +kernel
  | false =>
    unfold same
    rw [dropZeroSign_of_ne zero, isNumber, decide_eq_true rfl]
    rfl

/-- Different numbers are printed differently, but for the two zeros. -/
theorem eq_of_display_eq (first : x.isNaN = false) (second : y.isNaN = false)
    (same : x.display = y.display) : x = y ∨ (x.isZero = true ∧ y.isZero = true) := by
  have read : x.dropZeroSign = y.dropZeroSign := by
    rw [← Option.some_inj, ← number?_display first, ← number?_display second, same]
  have zeros : x.isZero = y.isZero := by
    rw [← isZero_dropZeroSign, read, isZero_dropZeroSign]
  cases zero : x.isZero with
  | true => exact .inr ⟨rfl, zeros ▸ zero⟩
  | false =>
    rw [dropZeroSign_of_ne zero, dropZeroSign_of_ne (zeros ▸ zero)] at read
    exact .inl read

/-! ## Numbers in source texts -/

theorem not_negative_of_atMost (order : Number.zero.atMost x = true) (nonzero : x.isZero = false) :
    x.negative = false := by
  have some : x.rank ≠ 0 := of_decide_eq_false nonzero
  unfold atMost at order
  have place : Number.zero.place ≤ x.place :=
    of_decide_eq_true (Bool.and_eq_true_iff.mp order).2
  rw [show Number.zero.place = 0 from rfl] at place
  unfold Number.place at place
  cases negative : x.negative with
  | true =>
    rw [negative, if_pos rfl] at place
    omega
  | false => rfl

/-- What is printed without a sign and a power of ten is a numeral of the language. -/
theorem isNumeral_display (finite : x.isFinite = true) (order : Number.zero.atMost x = true)
    (plain : 'e' ∉ x.display.toList) : IsNumeral x.display.toList x.dropZeroSign := by
  refine ⟨?_, by rw [String.ofList_toList]; exact number?_display (not_isNaN_of_isFinite finite)⟩
  cases zero : x.isZero with
  | true =>
    rw [display_of_isZero zero]
    exact .inl ⟨by decide, List.all_eq_true.mp (by decide)⟩
  | false =>
    have text := text_of_finite Layout.display_marksWith finite zero
    rw [not_negative_of_atMost order zero] at text
    have formed := Layout.display.formed_parts 0 (shortest x.rank)
    unfold display at plain ⊢
    rw [text, String.toList_ofList] at plain ⊢
    generalize Layout.display.parts 0 (shortest x.rank) = parts at *
    have power : parts.power = none := by
      by_contra some
      exact plain (formed.mem_mark_iff.mpr some)
    show Digits parts.text ∨ ∃ whole fraction, _ ∧ _ ∧ parts.text = _
    unfold Parts.text
    rw [power, show marked none = [] from rfl, List.append_nil]
    cases fraction : parts.fraction with
    | nil =>
      rw [show pointed [] = [] from rfl, List.append_nil]
      exact .inl ⟨formed.nonempty, formed.whole⟩
    | cons c rest =>
      exact .inr ⟨parts.whole, c :: rest, ⟨formed.nonempty, formed.whole⟩,
        ⟨List.cons_ne_nil _ _, fraction ▸ formed.fraction⟩, rfl⟩

end Number

/-- A numeral is one token. -/
theorem tokenize_of_isNumeral {text : List Char} {value : Number} (numeral : IsNumeral text value) :
    tokenize (String.ofList text) = .ok [⟨.number, String.ofList text, ⟨1, 1⟩⟩,
      .endAt (Place.start.after text).toPosition] := by
  have spells : Spells text [] .number text := by
    rcases numeral.1 with digits | ⟨whole, fraction, isWhole, isFraction, rfl⟩
    · exact .whole digits nofun nofun
    · exact .decimal isWhole isFraction nofun
  have splits : Splits .start ([] ++ (text ++ [])) _ _ := .piece .none spells (.last .none)
  rw [List.nil_append, List.append_nil] at splits
  unfold tokenize
  rw [String.toList_ofList, splits.tokensFrom_eq]
  rfl

/-- A numeral with a semicolon is a statement that consists of the number. -/
theorem compile_of_isNumeral {text : List Char} {value : Number} (numeral : IsNumeral text value) :
    ∃ found, compile (String.ofList text ++ ";") = .ok found ∧
      found.erase = ⟨default, [.expression (.number default value)]⟩ := by
  have printable : Program.Printable (fun _ => text)
      ⟨default, [.expression (.number default value)]⟩ := ⟨numeral, trivial⟩
  refine compile_of_arranged printable ?_
  rw [String.toList_append, String.toList_ofList]
  have semicolon : Arranged (fun first second => touches first second = true) (some text)
      [[';']] ([] ++ ([';'] ++ [])) := by
    refine .next .none ?_ (.last .none)
    intro earlier _ touch
    -- a semicolon is no part of a word
    exact absurd (Bool.and_eq_true_iff.mp touch).2 (by decide)
  have arranged : Arranged (fun first second => touches first second = true) none
      [text, [';']] ([] ++ (text ++ ([] ++ ([';'] ++ [])))) := .next .none nofun semicolon
  exact arranged

namespace Number

/-- Printing a number neither loses nor changes anything. A finite number other than zero is printed
as the shortest decimal that rounds to it, with the same value as in a tree, without a power of ten
exactly from `1e-6` to below `1e21`, and without a zero too many; reading the text gives the number.
Different numbers are printed differently, but for the two zeros. What is printed without a sign and
a power of ten is one number token, which is parsed as the number. -/
theorem display_exact :
    (∀ x : Number, x.isFinite = true → x.isZero = false → ∃ d : Decimal, d.IsShortest x.rank ∧
      denotation? x.literal = some (x.signed d.value) ∧
      denotation? x.display = some (x.signed d.value) ∧
      ('e' ∉ x.display.toList ↔
        10 ^ (-6 : Int) ≤ |x.signed d.value| ∧ |x.signed d.value| < 10 ^ (21 : Int)) ∧
      IsTidy x.display ∧ ¬ ['.', '0'] <:+ x.display.toList ∧ number? x.display = some x) ∧
    (∀ x y : Number, x.isNaN = false → y.isNaN = false → x.display = y.display →
      x = y ∨ (x.isZero = true ∧ y.isZero = true)) ∧
    (∀ x : Number, x.isFinite = true → Number.zero.atMost x = true → 'e' ∉ x.display.toList →
      tokenize x.display = .ok [⟨.number, x.display, ⟨1, 1⟩⟩,
        .endAt (Place.start.after x.display.toList).toPosition] ∧
      ∃ y found, y.same x = true ∧ (x.isZero = false → y = x) ∧
        compile (x.display ++ ";") = .ok found ∧
        found.erase = ⟨default, [.expression (.number default y)]⟩) := by
  refine ⟨?_, fun x y first second same => eq_of_display_eq first second same, ?_⟩
  · intro x finite nonzero
    have shortest := isShortest_of_finite finite nonzero
    have positive : 0 ≤ (Number.shortest x.rank).value :=
      mul_nonneg (Nat.cast_nonneg _) (Decimal.zpow_ten_pos _).le
    have tidy := isTidy_display finite nonzero
    refine ⟨_, shortest, denotation?_of_finite Layout.literal_marksWith finite nonzero,
      denotation?_of_finite Layout.display_marksWith finite nonzero, ?_, tidy,
      not_suffix_of_isTidy tidy, number?_of_finite Layout.display_marksWith finite nonzero⟩
    rw [abs_signed x positive]
    exact not_mem_display_iff finite nonzero
  · intro x finite order plain
    have isNumber := not_isNaN_of_isFinite finite
    have numeral := isNumeral_display finite order plain
    have split := tokenize_of_isNumeral numeral
    obtain ⟨found, compiled, same⟩ := compile_of_isNumeral numeral
    rw [String.ofList_toList] at split compiled
    exact ⟨split, _, found, same_dropZeroSign isNumber, dropZeroSign_of_ne, compiled, same⟩

/-- The number nearest to one tenth. -/
def tenth : Number := ⟨0x3FB999999999999A⟩

/-- It is printed as one tenth and read back, and nothing else is printed so. -/
theorem tenth_display : tenth.display = "0.1" ∧ number? "0.1" = some tenth ∧
    (∃ d : Decimal, d.IsShortest tenth.rank ∧ denotation? "0.1" = some (tenth.signed d.value)) ∧
    (∀ y : Number, y.isNaN = false → "0.1" = y.display → tenth = y) ∧
    ∃ found, compile "0.1;" = .ok found ∧
      found.erase = ⟨default, [.expression (.number default tenth)]⟩ := by
  have printed : tenth.display = "0.1" := by decide +kernel
  have finite : tenth.isFinite = true := by decide +kernel
  have nonzero : tenth.isZero = false := by decide +kernel
  obtain ⟨exactly, differs, parsed⟩ := display_exact
  obtain ⟨d, shortest, _, denotes, _, _, _, read⟩ := exactly tenth finite nonzero
  obtain ⟨_, y, found, _, same, compiled, erased⟩ := parsed tenth finite (by decide +kernel)
    (by rw [printed]; decide)
  cases same nonzero
  rw [printed] at denotes read compiled
  refine ⟨printed, read, ⟨d, shortest, denotes⟩, ?_, found, compiled, erased⟩
  intro y isNumber alike
  rcases differs tenth y (by decide +kernel) isNumber (printed.trans alike) with equal | zeros
  · exact equal
  · cases nonzero.symm.trans zeros.1

end Number

end Script
