import Mathlib
import Script.Number.Layout
import Script.Proofs.Number.Numeral
import Script.Proofs.Number.Shortest

/-!
# The parts of a printed number

What a layout writes for a decimal is a numeral with the parts that `Layout.parts` says, and these
denote the decimal (`value_parts`). There is a power of ten among them exactly outside the
magnitudes that the layout writes without one, and printed numbers have no zero too many
(`tidy_parts`).
-/

namespace Script

open Numeral

namespace Layout

variable {layout : Layout} {zeros : Nat} {digits : List Char}

/-! ## Parts -/

/-- How many zeros a layout writes behind the point of a whole number, if it writes a point. -/
def MarksWith (layout : Layout) (zeros : Nat) : Prop :=
  layout.wholeMark = String.ofList (pointed (List.replicate zeros '0'))

theorem display_marksWith : display.MarksWith 0 := rfl

theorem literal_marksWith : literal.MarksWith 1 := rfl

/-- The parts of a text without a power of ten. -/
def plainParts (zeros : Nat) (digits : List Char) (exponent : Int) : Parts :=
  if 0 ≤ exponent then
    ⟨digits ++ List.replicate exponent.toNat '0', List.replicate zeros '0', none⟩
  else
    let whole := digits.length + exponent
    if 0 < whole then ⟨digits.take whole.toNat, digits.drop whole.toNat, none⟩
    else ⟨['0'], List.replicate (-whole).toNat '0' ++ digits, none⟩

/-- The parts of a text with a power of ten. -/
def scientificParts (width : Nat) (digits : List Char) (power : Int) : Parts :=
  let exponent := Nat.toDigits 10 power.natAbs
  ⟨digits.take 1, digits.drop 1,
    some (decide (power < 0), List.replicate (width - exponent.length) '0' ++ exponent)⟩

/-- The parts of the text of a decimal. -/
def parts (layout : Layout) (zeros : Nat) (d : Decimal) : Parts :=
  if layout.lowest ≤ d.magnitude ∧ d.magnitude ≤ layout.highest then
    plainParts zeros d.digits d.exponent
  else scientificParts layout.exponentWidth d.digits d.magnitude

/-! ## The text is that of the parts -/

theorem pointed_of_ne_nil (nonempty : digits ≠ []) : pointed digits = '.' :: digits := by
  cases digits with
  | nil => exact absurd rfl nonempty
  | cons c rest => rfl

theorem plain_eq (marks : layout.MarksWith zeros) (nonempty : digits ≠ []) (exponent : Int) :
    layout.plain digits exponent = String.ofList (plainParts zeros digits exponent).text := by
  unfold plain plainParts
  split
  · rw [marks, ← String.ofList_append]
    unfold Parts.text marked
    rw [List.append_nil]
  · simp only
    split
    · have behind : digits.drop (digits.length + exponent).toNat ≠ [] := by
        rw [Ne, List.drop_eq_nil_iff]
        omega
      unfold Parts.text marked
      rw [pointed_of_ne_nil behind, List.append_nil]
    · unfold Parts.text marked
      rw [pointed_of_ne_nil (List.append_ne_nil_of_right_ne_nil _ nonempty), List.append_nil]
      rfl

theorem scientific_eq (digits : List Char) (power : Int) :
    layout.scientific digits power =
      String.ofList (scientificParts layout.exponentWidth digits power).text := by
  unfold scientific scientificParts Parts.text marked
  simp only [decide_eq_true_eq]
  rw [← List.append_assoc]
  congr 2
  match digits with
  | [] => rfl
  | [_] => rfl
  | _ :: _ :: _ => rfl

theorem digits_ne_nil (d : Decimal) : d.digits ≠ [] := Nat.toDigits_ne_nil

theorem decimal_eq (marks : layout.MarksWith zeros) (d : Decimal) :
    layout.decimal d = String.ofList (layout.parts zeros d).text := by
  unfold decimal parts
  split
  · exact plain_eq marks (digits_ne_nil d) d.exponent
  · exact scientific_eq d.digits d.magnitude

/-! ## The parts are digits -/

theorem isDigit_of_mem_zeros {count : Nat} {c : Char} (member : c ∈ List.replicate count '0') :
    isDigit c = true := by
  rw [List.eq_of_mem_replicate member]
  rfl

/-- The plain form has digits before its point, and behind it if there is one. -/
theorem formed_plainParts (nonempty : digits ≠ []) (all : ∀ c ∈ digits, isDigit c = true)
    (exponent : Int) : (plainParts zeros digits exponent).Formed := by
  unfold plainParts
  split
  · refine ⟨List.append_ne_nil_of_left_ne_nil nonempty _, ?_, fun _ => isDigit_of_mem_zeros,
      fun same => by cases same⟩
    intro c member
    rcases List.mem_append.mp member with digit | zero
    · exact all c digit
    · exact isDigit_of_mem_zeros zero
  · simp only
    split
    · refine ⟨?_, fun c member => all c (List.mem_of_mem_take member),
        fun c member => all c (List.mem_of_mem_drop member), fun same => by cases same⟩
      rw [Ne, List.take_eq_nil_iff]
      rintro (none | empty)
      · omega
      · exact nonempty empty
    · refine ⟨List.cons_ne_nil _ _, ?_, ?_, fun same => by cases same⟩
      · intro c member
        cases List.mem_singleton.mp member
        rfl
      · intro c member
        rcases List.mem_append.mp member with zero | digit
        · exact isDigit_of_mem_zeros zero
        · exact all c digit

theorem formed_scientificParts (width : Nat) (nonempty : digits ≠ [])
    (all : ∀ c ∈ digits, isDigit c = true) (power : Int) :
    (scientificParts width digits power).Formed := by
  refine ⟨?_, fun c member => all c (List.mem_of_mem_take member),
    fun c member => all c (List.mem_of_mem_drop member), ?_⟩
  · show digits.take 1 ≠ []
    rw [Ne, List.take_eq_nil_iff]
    exact not_or.mpr ⟨Nat.one_ne_zero, nonempty⟩
  · intro negative exponent same
    cases same
    refine ⟨List.append_ne_nil_of_right_ne_nil _ Nat.toDigits_ne_nil, ?_⟩
    intro c member
    rcases List.mem_append.mp member with zero | digit
    · exact isDigit_of_mem_zeros zero
    · exact isDigit_of_mem_toDigits digit

theorem formed_parts (layout : Layout) (zeros : Nat) (d : Decimal) :
    (layout.parts zeros d).Formed := by
  have all : ∀ c ∈ d.digits, isDigit c = true := fun _ member => isDigit_of_mem_toDigits member
  unfold parts
  split
  · exact formed_plainParts (digits_ne_nil d) all d.exponent
  · exact formed_scientificParts _ (digits_ne_nil d) all d.magnitude

theorem power_plainParts (zeros : Nat) (digits : List Char) (exponent : Int) :
    (plainParts zeros digits exponent).power = none := by
  unfold plainParts
  split
  · rfl
  · simp only
    split <;> rfl

/-- There is no power of ten exactly for the magnitudes that are written without one. -/
theorem power_parts (layout : Layout) (zeros : Nat) (d : Decimal) :
    (layout.parts zeros d).power = none ↔
      layout.lowest ≤ d.magnitude ∧ d.magnitude ≤ layout.highest := by
  unfold parts
  split
  · rename_i inside
    exact ⟨fun _ => inside, fun _ => power_plainParts _ _ _⟩
  · rename_i outside
    exact ⟨nofun, fun inside => absurd inside outside⟩

/-! ## What the parts denote -/

theorem natural_append_zeros (digits : List Char) (count : Nat) :
    natural (digits ++ List.replicate count '0') = natural digits * 10 ^ count := by
  rw [natural_append, natural_zeros, List.length_replicate, Nat.add_zero]
  rfl

theorem natural_zeros_append (count : Nat) (digits : List Char) :
    natural (List.replicate count '0' ++ digits) = natural digits := by
  rw [natural_append, natural_zeros, Nat.zero_mul, Nat.zero_add]

/-- The plain form denotes the digits times the power of ten, wherever the point goes. -/
theorem value_plainParts (zeros : Nat) (digits : List Char) (exponent : Int) :
    (plainParts zeros digits exponent).decimal.value = natural digits * 10 ^ exponent := by
  unfold plainParts
  split
  · rename_i whole
    obtain ⟨count, rfl⟩ := Int.eq_ofNat_of_zero_le whole
    unfold Parts.decimal Parts.exponent Decimal.value
    simp only [Int.toNat_natCast, List.length_replicate]
    rw [natural_append_zeros, natural_append_zeros, Nat.mul_assoc, ← Nat.pow_add, Nat.cast_mul,
      mul_assoc, Decimal.pow_mul_zpow_ten]
    congr 2
    push_cast
    ring
  · rename_i fractional
    simp only
    unfold Parts.decimal Parts.exponent Decimal.value
    split
    · simp only [List.take_append_drop, List.length_drop]
      congr 2
      omega
    · simp only [List.singleton_append, ← List.cons_append, ← List.replicate_succ,
        natural_zeros_append, List.length_append, List.length_replicate]
      congr 2
      push_cast
      omega

/-- The point behind the first digit moves the exponent by the number of the others. -/
theorem value_scientificParts (width : Nat) (digits : List Char) (power : Int) :
    (scientificParts width digits power).decimal.value =
      natural digits * 10 ^ (power - (digits.length - 1 : Nat)) := by
  have exponent : (scientificParts width digits power).exponent = power := by
    unfold scientificParts Parts.exponent
    simp only [natural_zeros_append, natural_toDigits, decide_eq_true_eq]
    split <;> omega
  unfold Parts.decimal Decimal.value
  rw [exponent]
  unfold scientificParts
  simp only [List.take_append_drop, List.length_drop]

/-- What is written for a decimal denotes it. -/
theorem value_parts (layout : Layout) (zeros : Nat) (d : Decimal) :
    (layout.parts zeros d).decimal.value = d.value := by
  have coefficient : natural d.digits = d.coefficient := natural_toDigits _
  unfold parts
  split
  · rw [value_plainParts, coefficient]
    rfl
  · rw [value_scientificParts, coefficient]
    unfold Decimal.value Decimal.magnitude Decimal.digits digitCount
    have some : 0 < (Nat.toDigits 10 d.coefficient).length := Nat.length_toDigits_pos
    congr 2
    omega

end Layout

/-! ## No zero too many -/

namespace Numeral.Parts

variable {parts : Parts}

/-- No zero could be left out of the text. -/
structure Tidy (parts : Parts) : Prop where
  /-- No zero starts the whole digits, unless it is the only one. -/
  whole : parts.whole = ['0'] ∨ parts.whole.head? ≠ some '0'
  /-- No zero ends the fraction. -/
  fraction : parts.fraction.getLast? ≠ some '0'
  /-- One digit other than zero stands before a power of ten, which does not start with a zero. -/
  power : ∀ {negative digits}, parts.power = some (negative, digits) →
    (∃ c, parts.whole = [c] ∧ c ≠ '0') ∧ digits.head? ≠ some '0'

/-- A tidy text does not end in a point and a zero. -/
theorem Tidy.not_suffix (tidy : parts.Tidy) (formed : parts.Formed) :
    ¬ ['.', '0'] <:+ parts.text := by
  intro ends
  have point : '.' ∈ ['.', '0'] := List.mem_cons_self
  cases same : parts.power with
  | none =>
    cases behind : parts.fraction with
    | nil =>
      have member := ends.subset point
      unfold text at member
      rw [same, behind, show pointed [] ++ marked none = [] from rfl, List.append_nil] at member
      cases formed.whole _ member
    | cons c rest =>
      have fraction : '.' :: c :: rest <:+ parts.text := by
        unfold text
        rw [same, behind]
        exact ⟨parts.whole, by rw [show marked none = [] from rfl, List.append_nil]; rfl⟩
      have inside := List.suffix_of_suffix_length_le ends fraction (by simp)
      rcases List.suffix_cons_iff.mp inside with whole | within
      · -- the fraction would be a zero
        cases whole
        exact tidy.fraction (by rw [behind]; rfl)
      · cases formed.fraction _ (behind ▸ within.subset point)
  | some pair =>
    obtain ⟨negative, digits⟩ := pair
    obtain ⟨nonempty, all⟩ := formed.power same
    have power : (if negative then '-' else '+') :: digits <:+ parts.text := by
      unfold text
      rw [same]
      refine ⟨parts.whole ++ pointed parts.fraction ++ ['e'], ?_⟩
      simp only [marked, List.append_assoc, List.singleton_append]
    have long : ['.', '0'].length ≤ ((if negative then '-' else '+') :: digits).length :=
      Nat.succ_le_succ (List.length_pos_iff.mpr nonempty)
    have inside := List.suffix_of_suffix_length_le ends power long
    rcases List.mem_cons.mp (inside.subset point) with sign | digit
    · cases negative <;> exact absurd sign (by decide)
    · cases all _ digit

end Numeral.Parts

namespace Layout

/-- Digits of a coefficient that ten does not divide end with no zero. -/
theorem getLast?_digits {d : Decimal} (trimmed : d.coefficient % 10 ≠ 0) :
    d.digits.getLast? ≠ some '0' := by
  obtain ⟨front, same⟩ := toDigits_eq_concat d.coefficient
  unfold Decimal.digits
  rw [same, List.getLast?_concat]
  intro zero
  apply trimmed
  rw [Option.some_inj, Nat.digitChar_eq_zero] at zero
  exact zero

/-- Printed numbers have no zero too many. -/
theorem tidy_parts {d : Decimal} (trimmed : d.coefficient % 10 ≠ 0) :
    (display.parts 0 d).Tidy := by
  have last := getLast?_digits trimmed
  obtain ⟨c, rest, digits, leading⟩ : ∃ c rest, d.digits = c :: rest ∧ c ≠ '0' :=
    toDigits_eq_cons (by omega)
  have first : d.digits.head? ≠ some '0' := by
    rw [digits]
    exact fun same => leading (Option.some_inj.mp same)
  unfold parts
  split
  · unfold plainParts
    split
    · refine ⟨.inr ?_, nofun, nofun⟩
      rw [digits]
      exact fun same => leading (Option.some_inj.mp same)
    · simp only
      split
      · refine ⟨.inr ?_, ?_, nofun⟩
        · rw [List.head?_take, if_neg (by omega)]
          exact first
        · rw [List.getLast?_drop]
          split
          · nofun
          · exact last
      · refine ⟨.inl rfl, ?_, nofun⟩
        rw [List.getLast?_append_of_ne_nil _ (digits_ne_nil d)]
        exact last
  · rename_i far
    have power : 0 < d.magnitude.natAbs := by
      unfold display at far
      simp only at far
      omega
    obtain ⟨e, others, exponent, nonzero⟩ := toDigits_eq_cons power
    unfold scientificParts
    refine ⟨.inr ?_, ?_, ?_⟩
    · rw [List.head?_take, if_neg Nat.one_ne_zero]
      exact first
    · rw [List.getLast?_drop]
      split
      · nofun
      · exact last
    · intro negative written same
      cases same
      refine ⟨⟨c, by rw [digits]; rfl, leading⟩, ?_⟩
      rw [exponent, show display.exponentWidth - (e :: others).length = 0 from
        Nat.sub_eq_zero_of_le (Nat.succ_le_succ (Nat.zero_le _))]
      exact fun same => nonzero (Option.some_inj.mp same)

end Layout

end Script
