import Script.Proofs.Grammar
import Script.Proofs.Number.Numeral
import Script.Token.Lexer

/-!
# What the lexer takes

`nextToken_cases` says all that reading one token can do: the text is a gap and ends, or a token
stands behind a gap. The lexer takes digits, perhaps with a point and more digits, as a number.
That is a numeral (`isSome_number?_of_plain`), so the number tokens of a text can all be read
(`validNumerals_of_tokenize`).
-/

namespace Script

open Grammar Lexer

/-! ## One token -/

namespace Lexer

/-- Reading a token comes to the end of the text, or takes a token behind a gap. -/
theorem nextToken_cases {place : Place} {text : List Char} {token : Token}
    (read : (nextToken place text).result = .ok token) :
    (splitGap false text = (text, []) ∧ token = .endAt (place.after text).toPosition) ∨
    ∃ gap c rest found, splitGap false text = (gap, c :: rest) ∧ lexeme c rest = .ok found ∧
      nextToken place text =
        ⟨.ok ⟨found.kind, String.ofList found.value, (place.after gap).toPosition⟩,
          (place.after gap).after found.raw, found.rest⟩ := by
  have whole := splitGap_append false text
  unfold nextToken at read ⊢
  generalize splitGap false text = split at read whole ⊢
  obtain ⟨gap, after⟩ := split
  cases after with
  | nil =>
    have same : gap = text := (List.append_nil gap).symm.trans whole
    cases read
    exact .inl ⟨by rw [same], by rw [same]⟩
  | cons c rest =>
    cases taken : lexeme c rest with
    | ok found =>
      refine .inr ⟨gap, c, rest, found, rfl, taken, ?_⟩
      simp only [taken]
    | error cause => cases cause <;> simp [taken] at read

/-- No token of a text is an end of input. -/
theorem lexeme_kind_ne_end {c : Char} {rest : List Char} {found : Lexeme}
    (taken : lexeme c rest = .ok found) : found.kind ≠ .endOfInput := by
  unfold lexeme at taken
  split at taken
  · split at taken <;> cases taken
    exact Kind.noConfusion
  · split at taken
    · cases taken
      exact Kind.noConfusion
    · split at taken
      · cases taken
        simp only [wordKind]
        split <;> exact Kind.noConfusion
      · split at taken <;> cases taken
        exact Kind.noConfusion

end Lexer

/-! ## Plain numerals -/

namespace Numeral

/-- Digits, perhaps with a point and further digits behind them. -/
def Plain (text : List Char) : Prop :=
  ∃ whole fraction, whole ≠ [] ∧ (∀ c ∈ whole, isDigit c = true) ∧
    (∀ c ∈ fraction, isDigit c = true) ∧ (text = whole ∨ text = whole ++ '.' :: fraction)

theorem Plain.written {text : List Char} (plain : Plain text) :
    ∀ c ∈ text, isWritten c = true := by
  obtain ⟨whole, fraction, _, digits, more, rfl | rfl⟩ := plain
  · exact fun c member => isWritten_of_isDigit (digits c member)
  · intro c member
    rcases List.mem_append.mp member with first | rest
    · exact isWritten_of_isDigit (digits c first)
    · rcases List.mem_cons.mp rest with rfl | last
      · rfl
      · exact isWritten_of_isDigit (more c last)

theorem Plain.starts {text : List Char} (plain : Plain text) :
    ∃ c rest, text = c :: rest ∧ isDigit c = true := by
  obtain ⟨whole, fraction, nonempty, digits, _, shape⟩ := plain
  cases whole with
  | nil => exact absurd rfl nonempty
  | cons c rest =>
    have digit := digits c List.mem_cons_self
    rcases shape with rfl | rfl
    · exact ⟨c, rest, rfl, digit⟩
    · exact ⟨c, _, rfl, digit⟩

theorem isSome_decimal?_of_plain {text : List Char} (plain : Plain text) :
    (decimal? text).isSome := by
  obtain ⟨whole, fraction, nonempty, digits, more, shape⟩ := plain
  have some : ∀ fraction : List Char, (whole.isEmpty && fraction.isEmpty) = false := by
    intro fraction
    cases whole with
    | nil => exact absurd rfl nonempty
    | cons c rest => rfl
  rcases shape with rfl | rfl
  · have split := span_append [] digits rfl
    rw [List.append_nil] at split
    unfold decimal?
    rw [split]
    simp only [splitFraction, power?, some]
    rfl
  · have split := span_append ('.' :: fraction) digits rfl
    have inner := span_append [] more rfl
    rw [List.append_nil] at inner
    unfold decimal?
    rw [split]
    simp only [splitFraction, inner, power?, some]
    rfl

/-- A plain numeral is a numeral. -/
theorem isSome_number?_of_plain {text : List Char} (plain : Plain text) :
    (number? (String.ofList text)).isSome := by
  obtain ⟨c, rest, rfl, digit⟩ := plain.starts
  have read := number?_of_written false plain.written digit
  rw [show minus false ++ c :: rest = c :: rest from rfl] at read
  rw [read, Option.isSome_map]
  exact isSome_decimal?_of_plain plain

end Numeral

/-! ## Number tokens -/

namespace Lexer

theorem plain_splitNumeral {c : Char} (digit : isDigit c = true) (rest : List Char) :
    Numeral.Plain (splitNumeral (c :: rest)).1 := by
  have whole : (c :: rest).takeWhile isDigit ≠ [] := by simp [digit]
  have digits : ∀ text : List Char, ∀ d ∈ text.takeWhile isDigit, isDigit d = true :=
    fun text d member => List.mem_takeWhile_imp member
  unfold splitNumeral
  split
  · rename_i d after _
    split
    · exact ⟨_, _, whole, digits _, digits _, .inr rfl⟩
    · exact ⟨_, [], whole, digits _, digits [], .inl rfl⟩
  · exact ⟨_, [], whole, digits _, digits [], .inl rfl⟩

/-- Only a plain numeral is taken as a number. -/
theorem plain_of_lexeme {c : Char} {rest : List Char} {found : Lexeme}
    (taken : lexeme c rest = .ok found) (number : found.kind = .number) :
    Numeral.Plain found.value := by
  unfold lexeme at taken
  split at taken
  · split at taken <;> cases taken
    cases number
  · split at taken
    · rename_i digit
      cases taken
      exact plain_splitNumeral digit rest
    · split at taken
      · cases taken
        simp only [wordKind] at number
        split at number <;> cases number
      · split at taken <;> cases taken
        cases number

theorem isSome_number?_of_nextToken {place : Place} {text : List Char} {token : Token}
    (read : (nextToken place text).result = .ok token) (number : token.kind = .number) :
    (Numeral.number? token.text).isSome := by
  rcases nextToken_cases read with ⟨_, rfl⟩ | ⟨gap, c, rest, found, _, taken, step⟩
  · cases number
  · rw [step] at read
    cases read
    exact Numeral.isSome_number?_of_plain (plain_of_lexeme taken number)

theorem validNumerals_of_tokensFrom (place : Place) (text : List Char) {tokens : List Token}
    (split : tokensFrom place text = .ok tokens) : ValidNumerals tokens := by
  fun_induction tokensFrom place text generalizing tokens with
  | case1 place text fault read => cases split
  | case2 place text token read last =>
    cases split
    exact List.forall_mem_singleton.mpr fun number => isSome_number?_of_nextToken read number
  | case3 place text token read more rest found ih =>
    cases split
    exact List.forall_mem_cons.mpr
      ⟨fun number => isSome_number?_of_nextToken read number, ih found⟩
  | case4 => cases split

end Lexer

/-- The number tokens of a text hold numerals. -/
theorem validNumerals_of_tokenize {source : String} {tokens : List Token}
    (split : tokenize source = .ok tokens) : ValidNumerals tokens :=
  validNumerals_of_tokensFrom .start source.toList split

end Script
