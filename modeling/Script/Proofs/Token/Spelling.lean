import Script.Proofs.Token.Joining

/-!
# Gaps and spellings

What may stand between two tokens of a text, and how a token is written, said without a lexer.
`Gap behind gap` is a gap before the rest of a text, `Spells raw behind kind value` a token written
as `raw` before that rest. The rest counts, since a comment may go on to the end of the text, and a
token must not go on in what follows it.

* `splitGap_eq_iff`, `lexeme_eq_ok_iff`: the lexer takes exactly the gaps and tokens of these rules.
-/

namespace Script

open Lexer

/-! ## Gaps -/

/-- Blanks and comments, before the rest of a text. A comment goes on to the next line end, which
is part of it, or to the end of the text. -/
inductive Gap (behind : List Char) : List Char → Prop
  | none : Gap behind []
  | blank {c gap} : c = ' ' ∨ c = '\t' ∨ c = '\r' ∨ c = '\n' → Gap behind gap →
      Gap behind (c :: gap)
  | comment {body gap} : '\n' ∉ body → Gap behind gap → Gap behind ('#' :: (body ++ '\n' :: gap))
  | lastComment {body} : '\n' ∉ body → behind = [] → Gap behind ('#' :: body)

/-! ## Spellings -/

/-- `Escaped c d`: behind a backslash, `c` stands for `d`. A backslash and a quote stand for
themselves, as all others do. -/
inductive Escaped : Char → Char → Prop
  | newline : Escaped 'n' '\n'
  | tab : Escaped 't' '\t'
  | carriageReturn : Escaped 'r' '\r'
  | self {c} : c ≠ 'n' → c ≠ 't' → c ≠ 'r' → Escaped c c

/-- `Quoted raw value`: what is written between two quotes, and what it stands for. A quote has a
backslash before it. -/
inductive Quoted : List Char → List Char → Prop
  | none : Quoted [] []
  | plain {c raw value} : c ≠ '"' → c ≠ '\\' → Quoted raw value → Quoted (c :: raw) (c :: value)
  | escaped {c d raw value} : Escaped c d → Quoted raw value →
      Quoted ('\\' :: c :: raw) (d :: value)

/-- At least one digit, and nothing else. -/
def Digits (text : List Char) : Prop := text ≠ [] ∧ ∀ c ∈ text, isDigit c = true

/-- A letter or an underscore, and then letters, underscores and digits. -/
def IsWord (text : List Char) : Prop :=
  ∃ c rest, text = c :: rest ∧ isWordStart c = true ∧ ∀ d ∈ rest, isWordPart d = true

/-- The rest of a text does not start with a character of a class. -/
def StartsOutside (part : Char → Bool) (behind : List Char) : Prop :=
  ∀ c tail, behind = c :: tail → part c = false

/-- `Spells raw behind kind value`: before the rest of a text, a token is written as `raw`. -/
inductive Spells : (raw behind : List Char) → (kind : Kind) → (value : List Char) → Prop
  | string {raw value behind} : Quoted raw value →
      Spells ('"' :: (raw ++ ['"'])) behind .string value
  | whole {digits behind} : Digits digits → StartsOutside isDigit behind →
      (∀ c tail, behind = '.' :: c :: tail → isDigit c = false) →
      Spells digits behind .number digits
  | decimal {whole fraction behind} : Digits whole → Digits fraction →
      StartsOutside isDigit behind →
      Spells (whole ++ '.' :: fraction) behind .number (whole ++ '.' :: fraction)
  | keyword {word behind keyword} : IsWord word → StartsOutside isWordPart behind →
      Keyword.spelling keyword = String.ofList word → Spells word behind (.keyword keyword) word
  | identifier {word behind} : IsWord word → StartsOutside isWordPart behind →
      (∀ keyword, Keyword.spelling keyword ≠ String.ofList word) →
      Spells word behind .identifier word
  | symbol {mark behind} :
      (∀ c tail, behind = c :: tail → ∀ longer, Symbol.spelling longer ≠ mark.spelling ++ [c]) →
      Spells mark.spelling behind (.symbol mark) mark.spelling

theorem Digits.starts {digits : List Char} (isDigits : Digits digits) (more : List Char) :
    ∃ c rest, digits ++ more = c :: rest ∧ isDigit c = true := by
  obtain ⟨nonempty, all⟩ := isDigits
  cases digits with
  | nil => exact absurd rfl nonempty
  | cons c rest => exact ⟨c, rest ++ more, rfl, all c List.mem_cons_self⟩

/-- A symbol has one or two characters, and no other kind of token starts as it does. -/
theorem Symbol.spelling_cons (mark : Symbol) :
    ∃ c others, mark.spelling = c :: others ∧ others.length ≤ 1 ∧ isGapStart c = false ∧
      c ≠ '"' ∧ isDigit c = false ∧ isWordStart c = false := by
  cases mark <;> exact ⟨_, _, rfl, by decide, by decide, by decide, by decide, by decide⟩

/-! ## The gaps that the lexer skips -/

namespace Lexer

theorem isGapStart_of_blank {c : Char} (blank : c = ' ' ∨ c = '\t' ∨ c = '\r' ∨ c = '\n') :
    isGapStart c = true := by
  rcases blank with rfl | rfl | rfl | rfl <;> rfl

/-- A character that starts a gap is skipped, and a comment goes on behind a hash. -/
theorem splitGap_cons_of_start {c : Char} (start : isGapStart c = true) (rest : List Char) :
    splitGap false (c :: rest) =
      (c :: (splitGap (c = '#') rest).1, (splitGap (c = '#') rest).2) := by
  unfold isGapStart at start
  rw [splitGap]
  simp [start]

theorem splitGap_cons_of_not_start {c : Char} (solid : isGapStart c = false) (rest : List Char) :
    splitGap false (c :: rest) = ([], c :: rest) := by
  unfold isGapStart at solid
  rw [splitGap]
  simp [solid]

/-- In a comment every character is skipped, and a line end closes it. -/
theorem splitGap_cons_of_comment (c : Char) (rest : List Char) :
    splitGap true (c :: rest) =
      (c :: (splitGap (c != '\n') rest).1, (splitGap (c != '\n') rest).2) := by
  rw [splitGap]
  simp

/-- Inside a comment, all is skipped up to the end of the line. -/
theorem splitGap_of_comment {body : List Char} (inLine : '\n' ∉ body) :
    splitGap true body = (body, []) := by
  induction body with
  | nil => rfl
  | cons c body ih =>
    rw [List.mem_cons, not_or] at inLine
    have goesOn : (c != '\n') = true := by simpa using Ne.symm inLine.1
    rw [splitGap_cons_of_comment, goesOn, ih inLine.2]

/-- What is skipped from inside a comment on: the rest of the comment and a gap. -/
def CommentAndGap (behind gap : List Char) : Prop :=
  ('\n' ∉ gap ∧ behind = []) ∨
    ∃ body more, '\n' ∉ body ∧ Gap behind more ∧ gap = body ++ '\n' :: more

theorem CommentAndGap.comment {behind gap : List Char} (skipped : CommentAndGap behind gap) :
    Gap behind ('#' :: gap) := by
  rcases skipped with ⟨inLine, ended⟩ | ⟨body, more, inLine, further, rfl⟩
  · exact .lastComment inLine ended
  · exact .comment inLine further

theorem CommentAndGap.cons {behind gap : List Char} {c : Char} (goesOn : c ≠ '\n')
    (skipped : CommentAndGap behind gap) : CommentAndGap behind (c :: gap) := by
  rcases skipped with ⟨inLine, ended⟩ | ⟨body, more, inLine, further, rfl⟩
  · exact .inl ⟨by simp [inLine, goesOn.symm], ended⟩
  · exact .inr ⟨c :: body, more, by simp [inLine, goesOn.symm], further, rfl⟩

/-- What the lexer skips is a gap, or the rest of a comment and a gap. -/
theorem gap_splitGap (text : List Char) :
    Gap (splitGap false text).2 (splitGap false text).1 ∧
      CommentAndGap (splitGap true text).2 (splitGap true text).1 := by
  -- both at once, since the one passes into the other at a hash and at a line end
  induction text with
  | nil => exact ⟨.none, .inl ⟨by simp [splitGap], rfl⟩⟩
  | cons c rest ih =>
    obtain ⟨outside, inside⟩ := ih
    constructor
    · by_cases start : isGapStart c = true
      · rw [splitGap_cons_of_start start]
        by_cases hash : c = '#'
        · subst hash
          exact inside.comment
        · have blank : c = ' ' ∨ c = '\t' ∨ c = '\r' ∨ c = '\n' := by
            rcases isGapStart_cases start with h | h | h | h | h
            · exact .inl h
            · exact .inr (.inl h)
            · exact .inr (.inr (.inl h))
            · exact .inr (.inr (.inr h))
            · exact absurd h hash
          simp only [hash, decide_false]
          exact .blank blank outside
      · rw [splitGap_cons_of_not_start (by simpa using start)]
        exact .none
    · rw [splitGap_cons_of_comment]
      by_cases ends : c = '\n'
      · subst ends
        exact .inr ⟨[], _, by simp, outside, rfl⟩
      · have goesOn : (c != '\n') = true := by simpa using ends
        rw [goesOn]
        exact inside.cons ends

/-- Behind what the lexer skips there is no further gap. -/
theorem splitGap_rest (inComment : Bool) (text : List Char) :
    StartsOutside isGapStart (splitGap inComment text).2 := by
  induction text generalizing inComment with
  | nil =>
    intro c tail starts
    cases starts
  | cons d rest ih =>
    cases inComment with
    | true =>
      rw [splitGap_cons_of_comment]
      exact ih _
    | false =>
      by_cases start : isGapStart d = true
      · rw [splitGap_cons_of_start start]
        exact ih _
      · rw [splitGap_cons_of_not_start (by simpa using start)]
        intro c tail starts
        cases starts
        simpa using start

/-- A gap is skipped as a whole if no further gap follows. -/
theorem splitGap_of_gap {behind gap : List Char} (isGap : Gap behind gap)
    (solid : StartsOutside isGapStart behind) : splitGap false (gap ++ behind) = (gap, behind) := by
  induction isGap with
  | none =>
    cases behind with
    | nil => rfl
    | cons c rest => exact splitGap_cons_of_not_start (solid c rest rfl) rest
  | @blank c gap blank _ ih =>
    have noHash : c ≠ '#' := by
      rintro rfl
      simp at blank
    rw [List.cons_append, splitGap_cons_of_start (isGapStart_of_blank blank)]
    simp only [noHash, decide_false, ih]
  -- the line end that closes the comment is taken with it
  | @comment body gap inLine _ ih =>
    rw [List.cons_append, splitGap_cons_of_start rfl, List.append_assoc, List.cons_append]
    have skipped : (splitGap true body).2 = [] := by rw [splitGap_of_comment inLine]
    simp only [decide_true, splitGap_append_of_nil skipped, ih]
  | lastComment inLine ended =>
    subst ended
    rw [List.append_nil, splitGap_cons_of_start rfl]
    simp only [decide_true, splitGap_of_comment inLine]

/-- The lexer skips exactly the gap before the first character that starts none. -/
theorem splitGap_eq_iff {text gap behind : List Char} :
    splitGap false text = (gap, behind) ↔
      gap ++ behind = text ∧ Gap behind gap ∧ StartsOutside isGapStart behind := by
  constructor
  · intro split
    have whole := splitGap_append false text
    have skipped := (gap_splitGap text).1
    have solid := splitGap_rest false text
    rw [split] at whole skipped solid
    exact ⟨whole, skipped, solid⟩
  · rintro ⟨rfl, isGap, solid⟩
    exact splitGap_of_gap isGap solid

/-! ## The tokens that the lexer takes -/

/-- The rules for characters behind a backslash, and the table that the lexer reads. -/
theorem escaped_iff {c d : Char} : Escaped c d ↔ unescape c = d := by
  constructor
  · intro escaped
    cases escaped with
    | self noN noT noR => simp [unescape, noN, noT, noR]
    | _ => rfl
  · rintro rfl
    unfold unescape
    split
    · rename_i same
      exact same ▸ .newline
    · split
      · rename_i same
        exact same ▸ .tab
      · split
        · rename_i same
          exact same ▸ .carriageReturn
        · rename_i noN noT noR
          exact .self noN noT noR

theorem splitString_escape (c : Char) (rest : List Char) :
    splitString ('\\' :: c :: rest) =
      (splitString rest).map fun found =>
        (unescape c :: found.1, '\\' :: c :: found.2.1, found.2.2) := by
  rw [splitString]
  cases splitString rest <;> rfl

/-- Quoted text is split off up to its quote, whatever stands behind. -/
theorem splitString_of_quoted {raw value : List Char} (quoted : Quoted raw value)
    (behind : List Char) :
    splitString (raw ++ '"' :: behind) = some (value, raw ++ ['"'], behind) := by
  induction quoted with
  | none => rfl
  | plain noQuote noEscape _ ih =>
    rw [List.cons_append, splitString_cons noQuote noEscape, ih]
    rfl
  | escaped stands _ ih =>
    rw [List.cons_append, List.cons_append, splitString_escape, ih, escaped_iff.mp stands]
    rfl

/-- What is split off is quoted text with its quote. -/
theorem quoted_of_splitString {text value raw behind : List Char}
    (found : splitString text = some (value, raw, behind)) :
    ∃ inner, raw = inner ++ ['"'] ∧ Quoted inner value := by
  fun_induction splitString text generalizing value raw behind with
  | case1 => cases found
  | case2 rest =>
    cases found
    exact ⟨[], rfl, .none⟩
  | case3 c rest value' raw' behind' inner ih =>
    cases found
    obtain ⟨body, rfl, quoted⟩ := ih inner
    exact ⟨'\\' :: c :: body, rfl, .escaped (escaped_iff.mpr rfl) quoted⟩
  | case4 => cases found
  | case5 c rest noQuote escape value' raw' behind' inner ih =>
    cases found
    -- a backslash with a character behind it is the case above, and one at the very end is split
    -- off never
    have noEscape : c ≠ '\\' := by
      rintro rfl
      cases rest with
      | nil => cases inner
      | cons d rest => exact escape d rest rfl rfl
    obtain ⟨body, rfl, quoted⟩ := ih inner
    exact ⟨c :: body, rfl, .plain noQuote noEscape quoted⟩
  | case6 => cases found

/-- What is taken while a class goes on ends before another character. -/
theorem startsOutside_dropWhile (part : Char → Bool) (text : List Char) :
    StartsOutside part (text.dropWhile part) := by
  intro c tail starts
  have outside := List.head?_dropWhile_not part text
  rw [starts] at outside
  simpa using outside

theorem takeWhile_append_of_outside {part : Char → Bool} {text behind : List Char}
    (inside : ∀ c ∈ text, part c = true) (outside : StartsOutside part behind) :
    (text ++ behind).takeWhile part = text ∧ (text ++ behind).dropWhile part = behind := by
  rw [List.takeWhile_append_of_pos inside, List.dropWhile_append_of_pos inside]
  cases behind with
  | nil => simp
  | cons c rest => simp [outside c rest rfl]

/-- A point without a digit behind it is no part of a numeral. -/
theorem splitNumeral_of_whole {digits behind : List Char} (isDigits : Digits digits)
    (outside : StartsOutside isDigit behind)
    (noPoint : ∀ c tail, behind = '.' :: c :: tail → isDigit c = false) :
    splitNumeral (digits ++ behind) = (digits, behind) := by
  obtain ⟨taken, left⟩ := takeWhile_append_of_outside isDigits.2 outside
  unfold splitNumeral
  rw [taken, left]
  split
  · rename_i d rest
    simp [noPoint d rest rfl]
  · rfl

/-- One point is, if digits stand behind it. -/
theorem splitNumeral_of_decimal {whole fraction behind : List Char} (isWhole : Digits whole)
    (isFraction : Digits fraction) (outside : StartsOutside isDigit behind) :
    splitNumeral (whole ++ '.' :: fraction ++ behind) = (whole ++ '.' :: fraction, behind) := by
  have point : StartsOutside isDigit ('.' :: fraction ++ behind) := by
    intro c tail starts
    cases starts
    rfl
  obtain ⟨taken, left⟩ := takeWhile_append_of_outside isWhole.2 point
  obtain ⟨takenBehind, leftBehind⟩ := takeWhile_append_of_outside isFraction.2 outside
  unfold splitNumeral
  rw [List.append_assoc, taken, left]
  cases fraction with
  | nil => exact absurd rfl isFraction.1
  | cons d rest =>
    have digit : isDigit d = true := isFraction.2 d List.mem_cons_self
    rw [List.cons_append] at takenBehind leftBehind
    simp only [List.cons_append, digit, if_true, takenBehind, leftBehind]

/-- A numeral that is split off is spelled by what is taken. -/
theorem spells_splitNumeral {c : Char} (digit : isDigit c = true) (rest : List Char) :
    Spells (splitNumeral (c :: rest)).1 (splitNumeral (c :: rest)).2 .number
      (splitNumeral (c :: rest)).1 := by
  -- what is taken while digits go on is not empty, since it starts with one
  have digits : ∀ {d : Char} {tail : List Char}, isDigit d = true →
      Digits ((d :: tail).takeWhile isDigit) := by
    intro d tail first
    exact ⟨by simp [first], fun e member => List.mem_takeWhile_imp member⟩
  have outside := startsOutside_dropWhile isDigit (c :: rest)
  unfold splitNumeral
  split
  · rename_i d after point
    rw [point] at outside
    split
    · rename_i more
      exact .decimal (digits digit) (digits more) (startsOutside_dropWhile isDigit _)
    · rename_i noMore
      refine .whole (digits digit) outside ?_
      rintro e tail same
      cases same
      simpa using noMore
  · rename_i noPoint
    refine .whole (digits digit) outside ?_
    intro e tail same
    exact absurd same (noPoint e tail)

/-- No two keywords are spelled alike. -/
theorem ofSpelling?_eq_some_iff {word : String} {keyword : Keyword} :
    Keyword.ofSpelling? word = some keyword ↔ keyword.spelling = word := by
  constructor
  · intro found
    simpa using List.find?_some found
  · rintro rfl
    cases keyword <;> decide

theorem ofSpelling?_eq_none_iff {word : String} :
    Keyword.ofSpelling? word = none ↔ ∀ keyword, Keyword.spelling keyword ≠ word := by
  constructor
  · intro missing keyword same
    rw [ofSpelling?_eq_some_iff.mpr same] at missing
    cases missing
  · intro differs
    cases found : Keyword.ofSpelling? word with
    | none => rfl
    | some keyword => exact absurd (ofSpelling?_eq_some_iff.mp found) (differs keyword)

theorem spells_word {word behind : List Char} (isWord : IsWord word)
    (outside : StartsOutside isWordPart behind) : Spells word behind (wordKind word) word := by
  unfold wordKind
  split
  · rename_i keyword found
    exact .keyword isWord outside (ofSpelling?_eq_some_iff.mp found)
  · rename_i missing
    exact .identifier isWord outside (ofSpelling?_eq_none_iff.mp missing)

/-- No two symbols are spelled alike. -/
theorem symbol_ofSpelling?_eq_some_iff {text : List Char} {mark : Symbol} :
    Symbol.ofSpelling? text = some mark ↔ mark.spelling = text := by
  constructor
  · intro found
    simpa using List.find?_some found
  · rintro rfl
    cases mark <;> decide

theorem symbol_ofSpelling?_eq_none_iff {text : List Char} :
    Symbol.ofSpelling? text = none ↔ ∀ mark, Symbol.spelling mark ≠ text := by
  constructor
  · intro missing mark same
    rw [symbol_ofSpelling?_eq_some_iff.mpr same] at missing
    cases missing
  · intro differs
    cases found : Symbol.ofSpelling? text with
    | none => rfl
    | some mark => exact absurd (symbol_ofSpelling?_eq_some_iff.mp found) (differs mark)

/-- The longest symbol at the start of a text is the one that does not go on. -/
theorem symbol?_of_spelling {mark : Symbol} {c : Char} {others behind : List Char}
    (spelled : mark.spelling = c :: others)
    (ends : ∀ d tail, behind = d :: tail →
      ∀ longer, Symbol.spelling longer ≠ mark.spelling ++ [d]) :
    symbol? c (others ++ behind) = some mark := by
  obtain ⟨_, _, same, short, _⟩ := Symbol.spelling_cons mark
  cases spelled.symm.trans same
  cases others with
  | nil =>
    have single := symbol_ofSpelling?_eq_some_iff.mpr spelled
    cases behind with
    | nil => exact single
    | cons d tail =>
      have noPair : Symbol.ofSpelling? [c, d] = none := by
        rw [symbol_ofSpelling?_eq_none_iff]
        intro longer
        have differs := ends d tail rfl longer
        rwa [spelled] at differs
      show (Symbol.ofSpelling? [c, d]).or (Symbol.ofSpelling? [c]) = some mark
      rw [noPair, single, Option.none_or]
  | cons d more =>
    -- no symbol has three characters
    have last : more = [] := by simpa using short
    subst last
    show (Symbol.ofSpelling? [c, d]).or (Symbol.ofSpelling? [c]) = some mark
    rw [symbol_ofSpelling?_eq_some_iff.mpr spelled, Option.some_or]

/-- The longest symbol goes on in no other one. -/
theorem spells_symbol? {c : Char} {rest : List Char} {mark : Symbol}
    (found : symbol? c rest = some mark) :
    Spells mark.spelling (rest.drop (mark.spelling.length - 1)) (.symbol mark) mark.spelling := by
  refine .symbol ?_
  intro e tail starts longer goesOn
  obtain ⟨_, _, same, short, _⟩ := Symbol.spelling_cons longer
  rw [same] at goesOn
  cases rest with
  | nil =>
    rw [List.drop_nil] at starts
    cases starts
  | cons d rest =>
    rcases Option.or_eq_some_iff.mp found with pair | ⟨noPair, single⟩
    · -- there is no symbol of three characters
      rw [symbol_ofSpelling?_eq_some_iff.mp pair] at goesOn
      have long := congrArg List.length goesOn
      simp at long
      omega
    · have spelled := symbol_ofSpelling?_eq_some_iff.mp single
      rw [spelled] at starts goesOn
      simp only [List.length_singleton, Nat.sub_self, List.drop_zero, List.cons.injEq] at starts
      obtain ⟨rfl, rfl⟩ := starts
      exact symbol_ofSpelling?_eq_none_iff.mp noPair longer (same.trans goesOn)

/-- What the lexer takes is spelled as the rules say. -/
theorem spells_of_lexeme {c : Char} {rest : List Char} {found : Lexeme}
    (taken : lexeme c rest = .ok found) :
    Spells found.raw found.rest found.kind found.value := by
  unfold lexeme at taken
  split at taken
  · rename_i quote
    split at taken
    · rename_i value raw after inner
      cases taken
      obtain ⟨body, rfl, quoted⟩ := quoted_of_splitString inner
      subst quote
      exact .string quoted
    · cases taken
  · split at taken
    · rename_i digit
      cases taken
      exact spells_splitNumeral digit rest
    · split at taken
      · rename_i start
        cases taken
        refine spells_word ⟨c, _, rfl, start, fun d member => ?_⟩
          (startsOutside_dropWhile isWordPart rest)
        exact List.mem_takeWhile_imp member
      · split at taken
        · rename_i mark inner
          cases taken
          exact spells_symbol? inner
        · cases taken

theorem ne_quote_of_isDigit {c : Char} (digit : isDigit c = true) : c ≠ '"' := by
  rintro rfl
  exact absurd digit (by decide)

/-- The code of a character that a word starts with. -/
theorem toNat_of_isWordStart {c : Char} (start : isWordStart c = true) :
    97 ≤ c.toNat ∧ c.toNat ≤ 122 ∨ 65 ≤ c.toNat ∧ c.toNat ≤ 90 ∨ c.toNat = 95 := by
  simp only [isWordStart, Bool.or_eq_true, Bool.and_eq_true, decide_eq_true_eq] at start
  rcases start with (small | capital) | rfl
  · exact .inl small
  · exact .inr (.inl capital)
  · exact .inr (.inr rfl)

/-- A letter starts neither a gap nor a token of another kind. -/
theorem isWordStart_solid {c : Char} (start : isWordStart c = true) :
    c ≠ '"' ∧ isDigit c = false ∧ isGapStart c = false := by
  have code := toNat_of_isWordStart start
  refine ⟨?_, ?_, ?_⟩
  · rintro rfl
    exact absurd start (by decide)
  · rw [Bool.eq_false_iff]
    intro digit
    have range := Numeral.toNat_of_isDigit digit
    omega
  · rw [Bool.eq_false_iff]
    intro gap
    rcases isGapStart_cases gap with rfl | rfl | rfl | rfl | rfl <;> simp at code

/-- The lexer takes a token from the start of a text. -/
def Takes (raw behind : List Char) (kind : Kind) (value : List Char) : Prop :=
  ∃ c rest, raw = c :: rest ∧ isGapStart c = false ∧
    lexeme c (rest ++ behind) = .ok ⟨kind, value, raw, behind⟩

theorem takes_numeral {raw behind : List Char}
    (starts : ∃ c rest, raw = c :: rest ∧ isDigit c = true)
    (split : splitNumeral (raw ++ behind) = (raw, behind)) : Takes raw behind .number raw := by
  obtain ⟨c, rest, rfl, digit⟩ := starts
  refine ⟨c, rest, rfl, ?_, ?_⟩
  · rw [Bool.eq_false_iff]
    intro gap
    rw [not_isDigit_of_gap gap] at digit
    cases digit
  · unfold lexeme
    rw [if_neg (ne_quote_of_isDigit digit), if_pos digit, ← List.cons_append, split]

theorem takes_word {word behind : List Char} (isWord : IsWord word)
    (outside : StartsOutside isWordPart behind) : Takes word behind (wordKind word) word := by
  obtain ⟨c, rest, rfl, start, parts⟩ := isWord
  obtain ⟨noQuote, noDigit, solid⟩ := isWordStart_solid start
  obtain ⟨taken, left⟩ := takeWhile_append_of_outside parts outside
  refine ⟨c, rest, rfl, solid, ?_⟩
  unfold lexeme
  rw [if_neg noQuote, if_neg (by simp [noDigit]), if_pos start, taken, left]

/-- Whatever the rules spell is taken. -/
theorem takes_of_spells {raw behind value : List Char} {kind : Kind}
    (spells : Spells raw behind kind value) : Takes raw behind kind value := by
  -- the first character decides which way the lexer goes
  cases spells with
  | string quoted =>
    refine ⟨'"', _, rfl, rfl, ?_⟩
    unfold lexeme
    rw [if_pos rfl, List.append_assoc, List.singleton_append, splitString_of_quoted quoted]
  | whole isDigits outside noPoint =>
    have starts := isDigits.starts []
    rw [List.append_nil] at starts
    exact takes_numeral starts (splitNumeral_of_whole isDigits outside noPoint)
  | decimal isWhole isFraction outside =>
    exact takes_numeral (isWhole.starts _) (splitNumeral_of_decimal isWhole isFraction outside)
  | @keyword _ _ keyword isWord outside spelled =>
    have kind : wordKind raw = .keyword keyword := by
      rw [wordKind, ofSpelling?_eq_some_iff.mpr spelled]
    exact kind ▸ takes_word isWord outside
  | identifier isWord outside differs =>
    have kind : wordKind raw = .identifier := by
      rw [wordKind, ofSpelling?_eq_none_iff.mpr differs]
    exact kind ▸ takes_word isWord outside
  | @symbol mark _ ends =>
    obtain ⟨c, others, spelled, short, solid, noQuote, noDigit, noWord⟩ := Symbol.spelling_cons mark
    refine ⟨c, others, spelled, solid, ?_⟩
    unfold lexeme
    rw [if_neg noQuote, if_neg (by simp [noDigit]), if_neg (by simp [noWord]),
      symbol?_of_spelling spelled ends]
    simp [spelled]

/-- The lexer takes exactly the token that a text starts with. -/
theorem lexeme_eq_ok_iff {c : Char} {rest : List Char} {found : Lexeme} :
    lexeme c rest = .ok found ↔
      found.raw ++ found.rest = c :: rest ∧ Spells found.raw found.rest found.kind found.value := by
  constructor
  · intro taken
    exact ⟨lexeme_append taken, spells_of_lexeme taken⟩
  · rintro ⟨whole, spells⟩
    obtain ⟨d, tail, cons, _, taken⟩ := takes_of_spells spells
    rw [cons, List.cons_append] at whole
    cases whole
    exact taken

end Lexer

end Script
