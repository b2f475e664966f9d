import Script.Number.Numeral
import Script.Token

/-!
# Splitting a source text into tokens

Between tokens stand gaps of blanks and comments. `lexeme` splits the text of one token off a
nonempty text, always the longest one: a string literal, a numeral, a word or a symbol.
`nextToken` skips a gap and takes one token, and `tokensFrom` goes on to the end of the text.

* `splitGap_append`, `lexeme_append`: nothing is lost, what is taken and what is left make up
  the text;
* `lexeme_rest_lt`: a token takes at least one character, so splitting ends.
-/

namespace Script

/-! ## Faults -/

/-- Why no token starts at a place. -/
inductive LexFault.Cause where
  | unterminatedString
  | unexpectedCharacter (c : Char)
deriving DecidableEq, Repr

/-- A place at which no token starts. -/
structure LexFault where
  cause : LexFault.Cause
  position : Position
deriving DecidableEq, Repr

/-- What is said about a lexical fault. -/
def LexFault.message (fault : LexFault) : String :=
  let what := match fault.cause with
    | .unterminatedString => "Unterminated string"
    | .unexpectedCharacter c => s!"Unexpected character '{c}'"
  s!"{what} at line {fault.position.line}, column {fault.position.column}"

namespace Lexer

/-! ## Character classes -/

/-- The blanks that may stand between tokens. -/
def isSpace (c : Char) : Bool := c = ' ' || c = '\t' || c = '\r' || c = '\n'

/-- The characters a word starts with. -/
def isWordStart (c : Char) : Bool :=
  ('a' ≤ c && c ≤ 'z') || ('A' ≤ c && c ≤ 'Z') || c = '_'

/-- The characters a word goes on with. -/
def isWordPart (c : Char) : Bool := isWordStart c || isDigit c

/-! ## Gaps -/

/-- Splits off the longest gap that a text starts with, inside a comment or outside. -/
def splitGap : (inComment : Bool) → List Char → List Char × List Char
  | _, [] => ([], [])
  | inComment, c :: rest =>
    if inComment then
      let (gap, after) := splitGap (c != '\n') rest
      (c :: gap, after)
    else if isSpace c || c = '#' then
      let (gap, after) := splitGap (c = '#') rest
      (c :: gap, after)
    else ([], c :: rest)

theorem splitGap_append (inComment : Bool) (text : List Char) :
    (splitGap inComment text).1 ++ (splitGap inComment text).2 = text := by
  induction text generalizing inComment with
  | nil => rfl
  | cons c rest ih =>
    unfold splitGap
    split
    · simp [ih]
    · split
      · simp [ih]
      · rfl

/-! ## String literals -/

/-- What an escaped character stands for. -/
def unescape (c : Char) : Char :=
  if c = 'n' then '\n' else if c = 't' then '\t' else if c = 'r' then '\r' else c

/-- Reads a string literal from behind its opening quote: what it stands for, the text up to and
including the closing quote, and what follows. -/
def splitString : List Char → Option (List Char × List Char × List Char)
  | [] => none
  | '"' :: rest => some ([], ['"'], rest)
  | '\\' :: c :: rest =>
    match splitString rest with
    | some (value, raw, after) => some (unescape c :: value, '\\' :: c :: raw, after)
    | none => none
  | c :: rest =>
    match splitString rest with
    | some (value, raw, after) => some (c :: value, c :: raw, after)
    | none => none

theorem splitString_append {text value raw after : List Char}
    (found : splitString text = some (value, raw, after)) : raw ++ after = text := by
  fun_induction splitString text generalizing value raw after with
  | case1 => simp at found
  | case2 rest =>
    simp only [Option.some.injEq, Prod.mk.injEq] at found
    obtain ⟨-, rfl, rfl⟩ := found
    rfl
  | case3 c rest value' raw' after' inner ih =>
    simp only [Option.some.injEq, Prod.mk.injEq] at found
    obtain ⟨-, rfl, rfl⟩ := found
    simp [ih inner]
  | case4 => simp at found
  | case5 c rest _ _ value' raw' after' inner ih =>
    simp only [Option.some.injEq, Prod.mk.injEq] at found
    obtain ⟨-, rfl, rfl⟩ := found
    simp [ih inner]
  | case6 => simp at found

/-! ## Numerals and symbols -/

/-- Splits off the digits, with a point only if a digit follows it, that a text starts with. -/
def splitNumeral (text : List Char) : List Char × List Char :=
  let whole := text.takeWhile isDigit
  match text.dropWhile isDigit with
  | '.' :: d :: rest =>
    if isDigit d then
      (whole ++ '.' :: (d :: rest).takeWhile isDigit, (d :: rest).dropWhile isDigit)
    else (whole, '.' :: d :: rest)
  | after => (whole, after)

theorem splitNumeral_append (text : List Char) :
    (splitNumeral text).1 ++ (splitNumeral text).2 = text := by
  have whole := List.takeWhile_append_dropWhile (p := isDigit) (l := text)
  unfold splitNumeral
  split
  · rename_i d rest point
    split
    · rw [point] at whole
      simpa using whole
    · rw [point] at whole
      exact whole
  · exact whole

/-- The longest symbol that a text starts with. -/
def symbol? : (c : Char) → (rest : List Char) → Option Symbol
  | c, [] => Symbol.ofSpelling? [c]
  | c, d :: _ => (Symbol.ofSpelling? [c, d]).or (Symbol.ofSpelling? [c])

/-! ## One token -/

/-- A token's text split off the text it starts. -/
structure Lexeme where
  kind : Kind
  /-- What the token stands for. -/
  value : List Char
  /-- The text of the token as written. -/
  raw : List Char
  /-- What follows the token. -/
  rest : List Char
deriving DecidableEq, Repr

/-- The kind of a word. -/
def wordKind (word : List Char) : Kind :=
  match Keyword.ofSpelling? (String.ofList word) with
  | some keyword => .keyword keyword
  | none => .identifier

/-- Splits off the token that a nonempty text starts with. -/
def lexeme (c : Char) (rest : List Char) : Except LexFault.Cause Lexeme :=
  if c = '"' then
    match splitString rest with
    | some (value, raw, after) => .ok ⟨.string, value, c :: raw, after⟩
    | none => .error .unterminatedString
  else if isDigit c then
    let (numeral, after) := splitNumeral (c :: rest)
    .ok ⟨.number, numeral, numeral, after⟩
  else if isWordStart c then
    let word := c :: rest.takeWhile isWordPart
    .ok ⟨wordKind word, word, word, rest.dropWhile isWordPart⟩
  else
    match symbol? c rest with
    | some mark =>
      .ok ⟨.symbol mark, mark.spelling, mark.spelling, rest.drop (mark.spelling.length - 1)⟩
    | none => .error (.unexpectedCharacter c)

theorem symbol?_append {c : Char} {rest : List Char} {mark : Symbol}
    (found : symbol? c rest = some mark) :
    mark.spelling ++ rest.drop (mark.spelling.length - 1) = c :: rest := by
  have spelled {text : List Char} (h : Symbol.ofSpelling? text = some mark) :
      mark.spelling = text := by simpa using List.find?_some h
  cases rest with
  | nil => simp [spelled found]
  | cons d rest =>
    rcases Option.or_eq_some_iff.mp found with pair | ⟨-, single⟩
    · simp [spelled pair]
    · simp [spelled single]

/-- A token and what follows it make up the text. -/
theorem lexeme_append {c : Char} {rest : List Char} {found : Lexeme}
    (taken : lexeme c rest = .ok found) : found.raw ++ found.rest = c :: rest := by
  unfold lexeme at taken
  split at taken
  · split at taken
    · rename_i value raw after inner
      cases taken
      simp [splitString_append inner]
    · cases taken
  · split at taken
    · cases taken
      exact splitNumeral_append (c :: rest)
    · split at taken
      · cases taken
        simp
      · split at taken
        · rename_i mark inner
          cases taken
          exact symbol?_append inner
        · cases taken

theorem splitNumeral_ne_nil {c : Char} (digit : isDigit c = true) (rest : List Char) :
    (splitNumeral (c :: rest)).1 ≠ [] := by
  have whole : (c :: rest).takeWhile isDigit ≠ [] := by simp [digit]
  unfold splitNumeral
  split
  · split
    · simp
    · exact whole
  · exact whole

/-- A token has at least one character. -/
theorem lexeme_raw_ne_nil {c : Char} {rest : List Char} {found : Lexeme}
    (taken : lexeme c rest = .ok found) : found.raw ≠ [] := by
  unfold lexeme at taken
  split at taken
  · split at taken <;> cases taken
    simp
  · split at taken
    · rename_i digit
      cases taken
      exact splitNumeral_ne_nil digit rest
    · split at taken
      · cases taken
        simp
      · split at taken
        · rename_i mark _
          cases taken
          cases mark <;> simp [Symbol.spelling]
        · cases taken

theorem lexeme_rest_lt {c : Char} {rest : List Char} {found : Lexeme}
    (taken : lexeme c rest = .ok found) : found.rest.length < (c :: rest).length := by
  rw [← lexeme_append taken, List.length_append]
  have := List.length_pos_iff.mpr (lexeme_raw_ne_nil taken)
  omega

/-! ## All tokens -/

/-- What one attempt to read a token gives, and where it leaves the text. -/
structure Step where
  result : Except LexFault Token
  place : Place
  rest : List Char

/-- Skips a gap and reads one token. An unexpected character is left unread; an unterminated
string is read to the end of the text. -/
def nextToken (place : Place) (text : List Char) : Step :=
  let (gap, after) := splitGap false text
  let start := place.after gap
  match after with
  | [] => ⟨.ok (.endAt start.toPosition), start, []⟩
  | c :: rest =>
    match lexeme c rest with
    | .ok found =>
      ⟨.ok ⟨found.kind, String.ofList found.value, start.toPosition⟩, start.after found.raw,
        found.rest⟩
    | .error .unterminatedString =>
      ⟨.error ⟨.unterminatedString, start.toPosition⟩, start.after (c :: rest), []⟩
    | .error cause => ⟨.error ⟨cause, start.toPosition⟩, start, c :: rest⟩

/-- Every token but the last shortens the text. -/
theorem nextToken_rest_lt {place : Place} {text : List Char} {token : Token}
    (read : (nextToken place text).result = .ok token) (more : token.kind ≠ .endOfInput) :
    (nextToken place text).rest.length < text.length := by
  have whole := congrArg List.length (splitGap_append false text)
  rw [List.length_append] at whole
  unfold nextToken at read ⊢
  generalize splitGap false text = split at read whole ⊢
  obtain ⟨gap, after⟩ := split
  cases after with
  | nil =>
    simp only [Except.ok.injEq] at read
    exact absurd (congrArg Token.kind read).symm more
  | cons c rest =>
    cases taken : lexeme c rest with
    | ok found =>
      have := lexeme_rest_lt taken
      simp only [taken] at whole ⊢
      omega
    | error cause => cases cause <;> simp [taken] at read

/-- The tokens of a text up to its end, or its first fault. -/
def tokensFrom (place : Place) (text : List Char) : Except LexFault (List Token) :=
  match _read : (nextToken place text).result with
  | .error fault => .error fault
  | .ok token =>
    if _last : token.kind = .endOfInput then .ok [token]
    else
      match tokensFrom (nextToken place text).place (nextToken place text).rest with
      | .ok tokens => .ok (token :: tokens)
      | .error fault => .error fault
termination_by text.length
decreasing_by exact nextToken_rest_lt _read _last

end Lexer

/-- The tokens of a source text, the end of input last. -/
def tokenize (source : String) : Except LexFault (List Token) :=
  Lexer.tokensFrom .start source.toList

/-- Reads one token. -/
def Reader.token (reader : Reader) : Except LexFault Token × Reader :=
  let step := Lexer.nextToken reader.place reader.rest
  (step.result, { reader with place := step.place })

end Script
