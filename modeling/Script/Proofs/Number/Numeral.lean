import Mathlib.Data.List.TakeDrop
import Mathlib.Data.List.TakeWhile
import Mathlib.Tactic.IntervalCases
import Script.Proofs.Number.Digits

/-!
# Reading the parts of a numeral

A numeral is written as whole digits, perhaps a fraction and perhaps a power of ten (`Parts`), and
is read as the decimal of these (`decimal?_text`). Blanks, underscores and digits of other scripts
apart, a numeral with a sign is read as its decimal is (`number?_of_written`).
-/

namespace Script.Numeral

/-! ## Texts that are read as they stand -/

/-- The characters that numerals are printed with. -/
def isWritten (c : Char) : Bool := isDigit c || c = '.' || c = 'e' || c = '+' || c = '-'

/-- The codes of the characters that numerals are written with. -/
theorem toNat_of_isWritten {c : Char} (written : isWritten c = true) :
    0x30 ≤ c.toNat ∧ c.toNat ≤ 0x39 ∨ c.toNat ∈ [0x2E, 0x65, 0x2B, 0x2D] := by
  simp only [isWritten, Bool.or_eq_true, decide_eq_true_eq] at written
  rcases written with (((digit | rfl) | rfl) | rfl) | rfl
  · exact .inl (toNat_of_isDigit digit)
  all_goals exact .inr (by decide)

theorem isWritten_of_isDigit {c : Char} (digit : isDigit c = true) : isWritten c = true := by
  simp only [isWritten, digit, Bool.true_or]

theorem plainDigit_of_isWritten {c : Char} (written : isWritten c = true) :
    Text.plainDigit c = c := by
  have code := toNat_of_isWritten written
  rw [← Char.ofNat_toNat c]
  generalize c.toNat = n at code ⊢
  rcases code with ⟨low, high⟩ | mark
  · interval_cases n <;> decide
  · simp only [List.mem_cons, List.not_mem_nil, or_false] at mark
    rcases mark with rfl | rfl | rfl | rfl <;> decide

theorem not_isBlank_of_isWritten {c : Char} (written : isWritten c = true) :
    Text.isBlank c = false := by
  have code := toNat_of_isWritten written
  simp only [List.mem_cons, List.not_mem_nil, or_false] at code
  simp only [Text.isBlank, Bool.or_eq_false_iff, Bool.and_eq_false_iff, decide_eq_false_iff_not]
  omega

theorem trim_eq_self {text : List Char} (none : ∀ c ∈ text, Text.isBlank c = false) :
    Text.trim text = text := by
  have drop : ∀ {text : List Char}, (∀ c ∈ text, Text.isBlank c = false) →
      text.dropWhile Text.isBlank = text := by
    intro text none
    cases text with
    | nil => rfl
    | cons c rest => rw [List.dropWhile_cons_of_neg (by simp [none c List.mem_cons_self])]
  unfold Text.trim Text.trimRight Text.trimLeft
  rw [drop none, drop fun c member => none c (List.mem_reverse.mp member), List.reverse_reverse]

theorem joinDigits_eq_self (text : List Char) (none : ∀ c ∈ text, c ≠ '_') :
    joinDigits text = text := by
  fun_induction joinDigits text with
  | case1 a b rest _ ih => exact absurd rfl (none '_' (by simp))
  | case2 a b rest _ ih => exact absurd rfl (none '_' (by simp))
  | case3 a rest _ ih => rw [ih fun c member => none c (List.mem_cons_of_mem _ member)]
  | case4 => rfl

/-- A text of such characters is read as it stands. -/
theorem cleaned_of_written {text : List Char} (written : ∀ c ∈ text, isWritten c = true) :
    joinDigits ((Text.trim text).map Text.plainDigit) = text := by
  rw [trim_eq_self fun c member => not_isBlank_of_isWritten (written c member),
    List.map_congr_left fun c member => plainDigit_of_isWritten (written c member), List.map_id']
  apply joinDigits_eq_self
  rintro c member rfl
  exact absurd (written _ member) (by decide)

/-- A minus, if there is one. -/
def minus (negative : Bool) : List Char := if negative then ['-'] else []

/-- A sign is split off, and a digit is no sign. -/
theorem splitSign_minus (negative : Bool) {c : Char} (rest : List Char)
    (digit : isDigit c = true) :
    splitSign (minus negative ++ c :: rest) = (negative, c :: rest) := by
  cases negative with
  | true => rfl
  | false =>
    have range := toNat_of_isDigit digit
    show splitSign (c :: rest) = _
    unfold splitSign
    split
    · rename_i cons
      cases cons
      exact absurd range.1 (by decide)
    · rename_i cons
      cases cons
      exact absurd range.1 (by decide)
    · rfl

theorem toLower_of_isDigit {c : Char} (digit : isDigit c = true) : c.toLower = c := by
  obtain ⟨low, high⟩ := toNat_of_isDigit digit
  rw [← Char.ofNat_toNat c]
  generalize c.toNat = n at low high ⊢
  interval_cases n <;> decide

/-- A text that starts with a digit is none of the words that are numerals. -/
theorem lower_ne_word {c : Char} (digit : isDigit c = true) (rest : List Char) {d : Char}
    (letter : isDigit d = false) (others : List Char) :
    String.ofList ((c :: rest).map Char.toLower) ≠ String.ofList (d :: others) := by
  intro same
  rw [String.ofList_inj, List.map_cons, toLower_of_isDigit digit, List.cons.injEq] at same
  rw [same.1, letter] at digit
  cases digit

/-- A number that is written with a sign is read as its decimal, rounded once. -/
theorem number?_of_written (negative : Bool) {c : Char} {rest : List Char}
    (written : ∀ d ∈ c :: rest, isWritten d = true) (digit : isDigit c = true) :
    number? (String.ofList (minus negative ++ c :: rest)) =
      (decimal? (c :: rest)).map (·.toNumber negative) := by
  have all : ∀ d ∈ minus negative ++ c :: rest, isWritten d = true := by
    intro d member
    rcases List.mem_append.mp member with sign | body
    · cases negative with
      | true =>
        cases List.mem_singleton.mp sign
        rfl
      | false => cases sign
    · exact written d body
  unfold number?
  rw [String.toList_ofList, cleaned_of_written all, splitSign_minus negative rest digit]
  simp only
  have notNaN := lower_ne_word digit rest (d := 'n') rfl ['a', 'n']
  have notShort := lower_ne_word digit rest (d := 'i') rfl ['n', 'f']
  have notLong := lower_ne_word digit rest (d := 'i') rfl "nfinity".toList
  rw [if_neg notNaN, if_neg]
  rw [Bool.or_eq_true, decide_eq_true_eq, decide_eq_true_eq]
  exact not_or.mpr ⟨notShort, notLong⟩

/-! ## Parts -/

/-- The parts of an unsigned numeral: whole digits, the digits of a fraction, and whether the power
of ten is negative with its digits. -/
structure Parts where
  whole : List Char
  fraction : List Char
  power : Option (Bool × List Char)
deriving DecidableEq, Repr

/-- A fraction with its point, or nothing. -/
def pointed : List Char → List Char
  | [] => []
  | digits => '.' :: digits

/-- A power of ten with its mark and its sign, or nothing. -/
def marked : Option (Bool × List Char) → List Char
  | none => []
  | some (negative, digits) => 'e' :: (if negative then '-' else '+') :: digits

theorem mem_pointed {digits : List Char} {c : Char} (member : c ∈ pointed digits) :
    c = '.' ∨ c ∈ digits := by
  cases digits with
  | nil => cases member
  | cons d rest => exact List.mem_cons.mp member

theorem mem_marked {power : Option (Bool × List Char)} {c : Char} (member : c ∈ marked power) :
    ∃ negative digits, power = some (negative, digits) ∧ (c ∈ ['e', '-', '+'] ∨ c ∈ digits) := by
  cases power with
  | none => cases member
  | some pair =>
    obtain ⟨negative, digits⟩ := pair
    refine ⟨negative, digits, rfl, ?_⟩
    rcases List.mem_cons.mp member with rfl | behind
    · exact .inl List.mem_cons_self
    · rcases List.mem_cons.mp behind with rfl | digit
      · cases negative <;> exact .inl (by decide)
      · exact .inr digit

theorem head?_marked (power : Option (Bool × List Char)) :
    (marked power).head?.all (fun c => !isDigit c) = true := by
  cases power <;> rfl

theorem span_append {whole : List Char} (rest : List Char) (digits : ∀ c ∈ whole, isDigit c = true)
    (stop : rest.head?.all fun c => !isDigit c) : (whole ++ rest).span isDigit = (whole, rest) := by
  rw [List.span_eq_takeWhile_dropWhile, List.takeWhile_append_of_pos digits,
    List.dropWhile_append_of_pos digits]
  cases rest with
  | nil => simp
  | cons c rest =>
    have other : isDigit c = false := by simpa using stop
    simp [other]

namespace Parts

variable {parts : Parts}

/-- The text of a numeral. -/
def text (parts : Parts) : List Char :=
  parts.whole ++ (pointed parts.fraction ++ marked parts.power)

/-- The power of ten. -/
def exponent (parts : Parts) : Int :=
  match parts.power with
  | none => 0
  | some (negative, digits) => if negative then -(natural digits : Int) else natural digits

/-- What the numeral denotes. -/
def decimal (parts : Parts) : Decimal :=
  ⟨natural (parts.whole ++ parts.fraction), parts.exponent - parts.fraction.length⟩

/-- The parts are digits, and there are such where there have to be. -/
structure Formed (parts : Parts) : Prop where
  nonempty : parts.whole ≠ []
  whole : ∀ c ∈ parts.whole, isDigit c = true
  fraction : ∀ c ∈ parts.fraction, isDigit c = true
  power : ∀ {negative digits}, parts.power = some (negative, digits) →
    digits ≠ [] ∧ ∀ c ∈ digits, isDigit c = true

theorem Formed.starts (formed : parts.Formed) :
    ∃ c rest, parts.text = c :: rest ∧ isDigit c = true := by
  unfold text
  cases same : parts.whole with
  | nil => exact absurd same formed.nonempty
  | cons c rest => exact ⟨c, _, rfl, formed.whole c (same ▸ List.mem_cons_self)⟩

/-- Which characters a numeral is written with. -/
theorem Formed.cases_of_mem (formed : parts.Formed) {c : Char} (member : c ∈ parts.text) :
    isDigit c = true ∨ c = '.' ∨ (parts.power ≠ none ∧ c ∈ ['e', '-', '+']) := by
  unfold text at member
  rcases List.mem_append.mp member with whole | behind
  · exact .inl (formed.whole c whole)
  · rcases List.mem_append.mp behind with fraction | power
    · rcases mem_pointed fraction with point | digit
      · exact .inr (.inl point)
      · exact .inl (formed.fraction c digit)
    · obtain ⟨negative, digits, same, mark | digit⟩ := mem_marked power
      · exact .inr (.inr ⟨by rw [same]; exact Option.some_ne_none _, mark⟩)
      · exact .inl ((formed.power same).2 c digit)

theorem Formed.written (formed : parts.Formed) : ∀ c ∈ parts.text, isWritten c = true := by
  intro c member
  rcases formed.cases_of_mem member with digit | rfl | ⟨_, mark⟩
  · exact isWritten_of_isDigit digit
  · rfl
  · simp only [List.mem_cons, List.not_mem_nil, or_false] at mark
    rcases mark with rfl | rfl | rfl <;> rfl

/-- A numeral has the mark of a power of ten exactly if it has a power of ten. -/
theorem Formed.mem_mark_iff (formed : parts.Formed) : 'e' ∈ parts.text ↔ parts.power ≠ none := by
  constructor
  · intro member
    rcases formed.cases_of_mem member with digit | point | ⟨power, _⟩
    · cases digit
    · exact absurd point (by decide)
    · exact power
  · intro power
    obtain ⟨⟨negative, digits⟩, same⟩ := Option.ne_none_iff_exists'.mp power
    unfold text
    rw [same]
    exact List.mem_append_right _ (List.mem_append_right _ List.mem_cons_self)

/-! ## Reading parts -/

theorem splitFraction_text (formed : parts.Formed) :
    splitFraction (pointed parts.fraction ++ marked parts.power) =
      (parts.fraction, marked parts.power) := by
  have digits := formed.fraction
  generalize parts.fraction = fraction at *
  cases fraction with
  | nil => cases parts.power <;> rfl
  | cons c rest => exact span_append _ digits (head?_marked _)

theorem power?_marked (formed : parts.Formed) :
    power? (marked parts.power) = some parts.exponent := by
  have power := @formed.power
  unfold exponent
  generalize parts.power = written at *
  cases written with
  | none => rfl
  | some pair =>
    obtain ⟨negative, digits⟩ := pair
    obtain ⟨nonempty, all⟩ := power rfl
    have full : digits.isEmpty = false := List.isEmpty_eq_false_iff.mpr nonempty
    have valid : digits.all isDigit = true := List.all_eq_true.mpr all
    cases negative <;> simp [marked, power?, splitSign, full, valid]

/-- A numeral is read as what its parts denote. -/
theorem decimal?_text (formed : parts.Formed) : decimal? parts.text = some parts.decimal := by
  have behind : (pointed parts.fraction ++ marked parts.power).head?.all (fun c => !isDigit c) := by
    cases parts.fraction with
    | nil => exact head?_marked _
    | cons c rest => rfl
  have some : parts.whole.isEmpty = false := List.isEmpty_eq_false_iff.mpr formed.nonempty
  unfold decimal? text
  rw [span_append _ formed.whole behind]
  simp only [splitFraction_text formed, power?_marked formed, some, Bool.false_and]
  rfl

/-- A numeral with a sign is read as what its parts denote, rounded once. -/
theorem number?_text (negative : Bool) (formed : parts.Formed) :
    number? (String.ofList (minus negative ++ parts.text)) =
      some (parts.decimal.toNumber negative) := by
  obtain ⟨c, rest, same, digit⟩ := formed.starts
  have written := formed.written
  rw [same] at written
  rw [same, number?_of_written negative written digit, ← same, decimal?_text formed]
  rfl

end Parts

end Script.Numeral
