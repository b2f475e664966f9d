import Mathlib
import Script.Command
import Script.Proofs.Token.Layout

/-!
# Line ends

A line ends with a newline, and a carriage return may stand before it. Outside of strings such a
carriage return is a blank or a part of a comment, and the newline behind it starts the next line
anyway, so no token and no position changes if it is left out.

* `PairedReturns.after_withoutReturns`: the place behind a text has the same line and column;
* `Splits.shorten`: a text is split into the same tokens;
* `line_ends_do_not_matter`: a source has the same tokens with either kind of line end, and the
  command does the same with it, given in the arguments or read from a file.
-/

namespace Script

open Lexer

/-! ## Carriage returns before newlines -/

/-- A text in which every carriage return has a newline behind it. -/
inductive PairedReturns : List Char → Prop
  | nil : PairedReturns []
  | lineEnd {text} : PairedReturns text → PairedReturns ('\r' :: '\n' :: text)
  | other {c text} : c ≠ '\r' → PairedReturns text → PairedReturns (c :: text)

/-- A text with a newline for every carriage return and newline. -/
def shortLineEnds : List Char → List Char
  | '\r' :: '\n' :: rest => '\n' :: shortLineEnds rest
  | c :: rest => c :: shortLineEnds rest
  | [] => []

/-- A text without its carriage returns. -/
def withoutReturns (text : List Char) : List Char := text.filter (· ≠ '\r')

theorem withoutReturns_append (first second : List Char) :
    withoutReturns (first ++ second) = withoutReturns first ++ withoutReturns second :=
  List.filter_append ..

theorem withoutReturns_return (text : List Char) :
    withoutReturns ('\r' :: text) = withoutReturns text :=
  List.filter_cons_of_neg (by simp)

theorem withoutReturns_cons {c : Char} (plain : c ≠ '\r') (text : List Char) :
    withoutReturns (c :: text) = c :: withoutReturns text :=
  List.filter_cons_of_pos (by simpa using plain)

theorem withoutReturns_lineEnd (text : List Char) :
    withoutReturns ('\r' :: '\n' :: text) = '\n' :: withoutReturns text := by
  rw [withoutReturns_return, withoutReturns_cons (by decide)]

theorem withoutReturns_eq_self {text : List Char} (plain : '\r' ∉ text) :
    withoutReturns text = text := by
  refine List.filter_eq_self.mpr fun c member => ?_
  have differs : c ≠ '\r' := fun same => plain (same ▸ member)
  simpa using differs

namespace PairedReturns

variable {text gap raw behind : List Char}

/-- Every carriage return is followed by a newline, said by places in the text. -/
theorem of_getElem? : ∀ {text : List Char},
    (∀ i : Nat, text[i]? = some '\r' → text[i + 1]? = some '\n') → PairedReturns text
  | [], _ => .nil
  | [c], followed => by
    refine .other ?_ .nil
    rintro rfl
    cases followed 0 rfl
  | c :: d :: text, followed => by
    by_cases returns : c = '\r'
    · subst returns
      cases followed 0 rfl
      exact .lineEnd (of_getElem? fun i => followed (i + 2))
    · exact .other returns (of_getElem? fun i => followed (i + 1))

/-- What makes a newline of every line end and keeps the rest leaves the carriage returns out. -/
theorem eq_withoutReturns (paired : PairedReturns text) {shorten : List Char → List Char}
    (nil : shorten [] = [])
    (lineEnd : ∀ rest, shorten ('\r' :: '\n' :: rest) = '\n' :: shorten rest)
    (other : ∀ c rest, c ≠ '\r' → shorten (c :: rest) = c :: shorten rest) :
    shorten text = withoutReturns text := by
  induction paired with
  | nil => exact nil
  | lineEnd _ ih =>
    rw [withoutReturns_lineEnd, ← ih]
    exact lineEnd _
  | other plain _ ih =>
    rw [withoutReturns_cons plain, ← ih]
    exact other _ _ plain

/-- In a text whose carriage returns stand before line ends, shortening the line ends is leaving the
returns out. -/
theorem shortLineEnds_eq (paired : PairedReturns text) :
    shortLineEnds text = withoutReturns text := by
  refine paired.eq_withoutReturns rfl (fun _ => rfl) fun c rest plain => ?_
  rw [shortLineEnds]
  exact fun _ returns _ => plain returns

/-- A file is read without the carriage returns. -/
theorem unifyLines_eq (paired : PairedReturns text) :
    Text.unifyLines text = withoutReturns text := by
  refine paired.eq_withoutReturns rfl (fun _ => rfl) fun c rest plain => ?_
  rw [Text.unifyLines]
  · exact fun _ returns _ => plain returns
  · exact plain

theorem tail {c : Char} (paired : PairedReturns (c :: text)) (plain : c ≠ '\r') :
    PairedReturns text := by
  cases paired with
  | lineEnd => exact absurd rfl plain
  | other _ further => exact further

theorem of_plain_append (paired : PairedReturns (raw ++ behind)) (plain : '\r' ∉ raw) :
    PairedReturns behind := by
  induction raw with
  | nil => exact paired
  | cons c raw ih =>
    rw [List.mem_cons, not_or] at plain
    exact ih (paired.tail (Ne.symm plain.1)) plain.2

/-- A text may be cut where no newline follows. -/
theorem of_append (paired : PairedReturns (gap ++ behind)) (cut : behind.head? ≠ some '\n') :
    PairedReturns gap ∧ PairedReturns behind := by
  generalize whole : gap ++ behind = text at paired
  induction paired generalizing gap with
  | nil =>
    obtain ⟨rfl, rfl⟩ := List.append_eq_nil_iff.mp whole
    exact ⟨.nil, .nil⟩
  | @lineEnd text further ih =>
    rcases gap with _ | ⟨c, _ | ⟨d, gap⟩⟩
    · rw [List.nil_append] at whole
      exact ⟨.nil, whole ▸ .lineEnd further⟩
    · cases whole
      exact absurd rfl cut
    · cases whole
      obtain ⟨front, back⟩ := ih rfl
      exact ⟨.lineEnd front, back⟩
  | @other c text plain further ih =>
    rcases gap with _ | ⟨d, gap⟩
    · rw [List.nil_append] at whole
      exact ⟨.nil, whole ▸ .other plain further⟩
    · cases whole
      obtain ⟨front, back⟩ := ih rfl
      exact ⟨.other plain front, back⟩

end PairedReturns

/-! ## Positions -/

/-- Lines and columns go on alike from places that differ in their offset. -/
theorem Place.toPosition_next {place other : Place} (level : other.toPosition = place.toPosition)
    (c : Char) : (other.next c).toPosition = (place.next c).toPosition := by
  obtain ⟨position, offset⟩ := other
  cases level
  unfold next
  split <;> rfl

/-- Lines and columns behind a text depend on those before it, and not on the offset. -/
theorem Place.toPosition_after {place other : Place}
    (level : other.toPosition = place.toPosition) (text : List Char) :
    (other.after text).toPosition = (place.after text).toPosition := by
  induction text generalizing place other with
  | nil => exact level
  | cons c text ih => exact ih (toPosition_next level c)

/-- The newline behind a carriage return leads to the start of the next line, wherever the carriage
return has led to. -/
theorem PairedReturns.after_withoutReturns {text : List Char} (paired : PairedReturns text)
    {place other : Place} (level : other.toPosition = place.toPosition) :
    (other.after (withoutReturns text)).toPosition = (place.after text).toPosition := by
  induction paired generalizing place other with
  | nil => exact level
  | lineEnd _ ih =>
    rw [withoutReturns_lineEnd]
    refine ih ?_
    have line : other.line = place.line := congrArg Position.line level
    show Position.mk (other.line + 1) 1 = Position.mk (place.line + 1) 1
    rw [line]
  | @other c _ plain _ ih =>
    rw [withoutReturns_cons plain]
    exact ih (Place.toPosition_next level c)

/-! ## Gaps and spellings -/

/-- A gap without carriage returns is a gap. -/
theorem Gap.shorten {gap behind other : List Char} (isGap : Gap behind gap)
    (ended : behind = [] → other = []) : Gap other (withoutReturns gap) := by
  have inLine {body : List Char} (whole : '\n' ∉ body) : '\n' ∉ withoutReturns body :=
    fun member => whole (List.mem_of_mem_filter member)
  induction isGap with
  | none => exact .none
  | @blank c gap blank _ ih =>
    by_cases returns : c = '\r'
    · rw [returns, withoutReturns_return]
      exact ih
    · rw [withoutReturns_cons returns]
      exact .blank blank ih
  | @comment body gap whole _ ih =>
    rw [withoutReturns_cons (by decide), withoutReturns_append, withoutReturns_cons (by decide)]
    exact .comment (inLine whole) ih
  | lastComment whole last =>
    rw [withoutReturns_cons (by decide)]
    exact .lastComment (inLine whole) (ended last)

theorem not_isGapStart_of_digit {c : Char} (digit : isDigit c = true) : isGapStart c = false := by
  rw [Bool.eq_false_iff]
  intro gap
  rw [not_isDigit_of_gap gap] at digit
  cases digit

theorem not_isGapStart_of_wordPart {c : Char} (part : isWordPart c = true) :
    isGapStart c = false := by
  rw [Bool.eq_false_iff]
  intro gap
  rw [not_isWordPart_of_gap gap] at part
  cases part

theorem Digits.solid {digits : List Char} (isDigits : Digits digits) :
    ∀ c ∈ digits, isGapStart c = false :=
  fun c member => not_isGapStart_of_digit (isDigits.2 c member)

theorem IsWord.solid {word : List Char} (isWord : IsWord word) :
    ∀ c ∈ word, isGapStart c = false := by
  obtain ⟨first, rest, rfl, start, parts⟩ := isWord
  refine List.forall_mem_cons.mpr ⟨(isWordStart_solid start).2.2, fun c member => ?_⟩
  exact not_isGapStart_of_wordPart (parts c member)

theorem Symbol.solid (mark : Symbol) : ∀ c ∈ mark.spelling, isGapStart c = false := by
  have solid : mark.spelling.all (!isGapStart ·) = true := by cases mark <;> rfl
  intro c member
  simpa using List.all_eq_true.mp solid c member

/-- Only strings have blanks in them. -/
theorem Spells.solid {raw behind value : List Char} {kind : Kind}
    (spells : Spells raw behind kind value) (noString : kind ≠ .string) :
    ∀ c ∈ raw, isGapStart c = false := by
  cases spells with
  | string => exact absurd rfl noString
  | whole digits => exact digits.solid
  | decimal whole fraction =>
    exact List.forall_mem_append.mpr ⟨whole.solid, List.forall_mem_cons.mpr ⟨rfl, fraction.solid⟩⟩
  | keyword isWord => exact isWord.solid
  | identifier isWord => exact isWord.solid
  | @symbol mark => exact mark.solid

/-- A token ends where it does for the next character, and for the one behind a point. -/
theorem Spells.of_head {raw tail other value : List Char} {kind : Kind} {c : Char}
    (spells : Spells raw (c :: tail) kind value)
    (point : StartsOutside isDigit tail → StartsOutside isDigit other) :
    Spells raw (c :: other) kind value := by
  have head {part : Char → Bool} (outside : StartsOutside part (c :: tail)) :
      StartsOutside part (c :: other) := by
    rintro d more ⟨⟩
    exact outside _ _ rfl
  cases spells with
  | string quoted => exact .string quoted
  | whole digits outside noPoint =>
    refine .whole digits (head outside) ?_
    rintro d more ⟨⟩
    exact point (fun e further starts => noPoint e further (by rw [starts])) d more rfl
  | decimal whole fraction outside => exact .decimal whole fraction (head outside)
  | keyword isWord outside spelled => exact .keyword isWord (head outside) spelled
  | identifier isWord outside differs => exact .identifier isWord (head outside) differs
  | symbol ends =>
    refine .symbol ?_
    rintro d more ⟨⟩
    exact ends _ _ rfl

/-- What follows a token starts with a line end in the shorter text, if it starts with a carriage
return. -/
theorem StartsOutside.shorten {part : Char → Bool} {text : List Char}
    (outside : StartsOutside part text) (paired : PairedReturns text)
    (lineEnd : part '\n' = false) : StartsOutside part (withoutReturns text) := by
  cases paired with
  | nil => exact outside
  | lineEnd =>
    rw [withoutReturns_lineEnd]
    rintro c tail ⟨⟩
    exact lineEnd
  | other plain =>
    rw [withoutReturns_cons plain]
    rintro c tail ⟨⟩
    exact outside _ _ rfl

/-- A token ends before a newline as before a carriage return. -/
theorem Spells.shorten {raw behind value : List Char} {kind : Kind}
    (spells : Spells raw behind kind value) (paired : PairedReturns behind) :
    Spells raw (withoutReturns behind) kind value := by
  cases paired with
  | nil => exact spells
  | lineEnd =>
    -- what a numeral or a symbol looks ahead at has changed, but both are blanks
    refine spells.before_gap ?_
    rw [withoutReturns_lineEnd]
    rintro c tail ⟨⟩
    rfl
  | other plain further =>
    rw [withoutReturns_cons plain]
    exact spells.of_head fun outside => outside.shorten further rfl

/-! ## Splits -/

/-- No string of a split has a carriage return in it. -/
def PlainStrings (pieces : List Piece) : Prop :=
  ∀ piece ∈ pieces, piece.token.kind = .string → '\r' ∉ piece.raw

/-- Without its carriage returns, a text is split into the same tokens at the same positions. -/
theorem Splits.shorten {place other : Place} {text last : List Char} {pieces : List Piece}
    (splits : Splits place text pieces last) (paired : PairedReturns text)
    (plain : PlainStrings pieces) (level : other.toPosition = place.toPosition) :
    ∃ others, Splits other (withoutReturns text) others (withoutReturns last) ∧
      others.map Piece.token = pieces.map Piece.token := by
  induction splits generalizing other with
  | last isGap => exact ⟨[], .last (isGap.shorten fun _ => rfl), rfl⟩
  | @piece place gap raw rest kind value pieces last isGap spells _ ih =>
    obtain ⟨plainHere, plainBehind⟩ := List.forall_mem_cons.mp plain
    have plainRaw : '\r' ∉ raw := by
      by_cases string : kind = .string
      · exact plainHere string
      · exact fun member => absurd (spells.solid string _ member) (by decide)
    -- no token starts with a newline, so a carriage return in the gap has its newline there too
    have atToken : (raw ++ rest).head? ≠ some '\n' := by
      obtain ⟨c, tail, rfl, solid, _⟩ := takes_of_spells spells
      rintro ⟨⟩
      cases solid
    obtain ⟨pairedGap, pairedToken⟩ := paired.of_append atToken
    have pairedRest := pairedToken.of_plain_append plainRaw
    have start := pairedGap.after_withoutReturns level
    have finish := Place.toPosition_after start raw
    obtain ⟨others, further, same⟩ := ih pairedRest plainBehind finish
    have ended : raw ++ rest = [] → raw ++ withoutReturns rest = [] := by
      intro empty
      obtain ⟨rfl, rfl⟩ := List.append_eq_nil_iff.mp empty
      rfl
    rw [withoutReturns_append, withoutReturns_append, withoutReturns_eq_self plainRaw]
    refine ⟨_, .piece (isGap.shorten ended) (spells.shorten pairedRest) further, ?_⟩
    rw [List.map_cons, List.map_cons, same, start]

/-- Without its carriage returns, a text has the same tokens. -/
theorem tokenize_withoutReturns {source : String} {tokens : List Token}
    (paired : PairedReturns source.toList) (lexes : tokenize source = .ok tokens)
    (plain : ∀ pieces last, Splits .start source.toList pieces last → PlainStrings pieces) :
    tokenize (String.ofList (withoutReturns source.toList)) = .ok tokens := by
  obtain ⟨pieces, last, splits, rfl⟩ := tokensFrom_eq_ok_iff.mp lexes
  obtain ⟨others, further, same⟩ := splits.shorten paired (plain _ _ splits) rfl
  unfold tokenize
  rw [String.toList_ofList, further.tokensFrom_eq]
  unfold splitTokens
  rw [same, paired.after_withoutReturns rfl]

/-! ## The command -/

/-- What the command does with a source depends on its tokens only. -/
theorem Command.sourceEnding_congr {source other : String}
    (same : tokenize other = tokenize source) (limits : Limits) (options : Options) :
    sourceEnding limits options other = sourceEnding limits options source := by
  unfold sourceEnding process
  rw [same]

/-- A file that can be decoded is run with its line ends made one of one character each. -/
theorem Command.fileEnding_of_decode {bytes : ByteArray} {source : String}
    (decoded : Text.decode bytes = .ok source) (limits : Limits) (options : Options)
    (name : String) : fileEnding limits options name (.ok bytes) =
      sourceEnding limits options (String.ofList (Text.unifyLines source.toList)) := by
  unfold fileEnding
  simp only [decoded]

/-- A source whose lines end with a carriage return and a newline has the same tokens, at the same
lines and columns, as with a newline only, if no string has a carriage return in it. So it does not
matter to the command whether it is given the source or reads it from a file. -/
theorem line_ends_do_not_matter {source : String} {tokens : List Token}
    (followed : ∀ i : Nat, source.toList[i]? = some '\r' → source.toList[i + 1]? = some '\n')
    (lexes : tokenize source = .ok tokens)
    (plain : ∀ pieces last, Splits .start source.toList pieces last → PlainStrings pieces) :
    tokenize (String.ofList (shortLineEnds source.toList)) = .ok tokens ∧
    tokenize (String.ofList (Text.unifyLines source.toList)) = .ok tokens ∧
    ∀ limits options name bytes, Text.decode bytes = .ok source →
      Command.fileEnding limits options name (.ok bytes) =
        Command.sourceEnding limits { options with string := true, source := some source }
          source := by
  have paired := PairedReturns.of_getElem? followed
  have same := tokenize_withoutReturns paired lexes plain
  have read : tokenize (String.ofList (Text.unifyLines source.toList)) = .ok tokens := by
    rw [paired.unifyLines_eq, same]
  refine ⟨by rw [paired.shortLineEnds_eq, same], read, fun limits options name bytes decoded => ?_⟩
  rw [Command.fileEnding_of_decode decoded]
  exact Command.sourceEnding_congr (read.trans lexes.symm) limits _

/-- A piece that the lexer takes off a text. -/
theorem Splits.of_lexeme {place : Place} {text tail value rest last : List Char} {c : Char}
    {piece : Piece} {pieces : List Piece} (spaced : splitGap false text = (piece.gap, c :: tail))
    (taken : lexeme c tail = .ok ⟨piece.token.kind, value, piece.raw, rest⟩)
    (token : piece.token =
      ⟨piece.token.kind, String.ofList value, (place.after piece.gap).toPosition⟩)
    (further : Splits ((place.after piece.gap).after piece.raw) rest pieces last) :
    Splits place text (piece :: pieces) last := by
  obtain ⟨skipped, isGap, _⟩ := splitGap_eq_iff.mp spaced
  obtain ⟨whole, spells⟩ := lexeme_eq_ok_iff.mp taken
  rw [← skipped, ← whole]
  have split := Splits.piece (whole ▸ isGap) spells further
  rwa [← token] at split

/-- Lines with carriage returns: a comment, a symbol, a numeral before a point, and a string with
an escape for one. -/
def returningText : List Char :=
  ['#', ' ', 'a', '\r', '\n', 'x', ' ', '<', '\r', '\n', '1', '.', '\r', '\n',
    '"', '\\', 'r', '"', '\r', '\n']

/-- The spellings of these lines. -/
def returningPieces : List Piece :=
  [⟨['#', ' ', 'a', '\r', '\n'], ['x'], ⟨.identifier, "x", ⟨2, 1⟩⟩⟩,
   ⟨[' '], ['<'], ⟨.symbol .less, "<", ⟨2, 3⟩⟩⟩,
   ⟨['\r', '\n'], ['1'], ⟨.number, "1", ⟨3, 1⟩⟩⟩,
   ⟨[], ['.'], ⟨.symbol .dot, ".", ⟨3, 2⟩⟩⟩,
   ⟨['\r', '\n'], ['"', '\\', 'r', '"'], ⟨.string, "\r", ⟨4, 1⟩⟩⟩]

/-- The lines have the same tokens with newlines only, and when they are read from a file. -/
theorem returningText_shortened :
    let source := String.ofList returningText
    let tokens := splitTokens returningPieces ⟨⟨5, 1⟩, 20⟩
    (∀ i : Nat, source.toList[i]? = some '\r' → source.toList[i + 1]? = some '\n') ∧
    tokenize source = .ok tokens ∧
    (∀ pieces last, Splits .start source.toList pieces last → PlainStrings pieces) ∧
    tokenize "# a\nx <\n1.\n\"\\r\"\n" = .ok tokens ∧
    Command.fileEnding .standard { tokens := true } "a.misty" (.ok source.toUTF8) =
      .finished ⟨0, Command.tokenListing tokens, ""⟩ := by
  intro source tokens
  have text : source.toList = returningText := String.toList_ofList
  have splits : Splits .start returningText returningPieces ['\r', '\n'] := by
    refine .of_lexeme (by rfl) (by rfl) rfl ?_
    refine .of_lexeme (by rfl) (by rfl) rfl ?_
    refine .of_lexeme (by rfl) (by rfl) rfl ?_
    refine .of_lexeme (by rfl) (by rfl) rfl ?_
    refine .of_lexeme (by rfl) (by rfl) rfl ?_
    exact .last (.blank (by decide) (.blank (by decide) .none))
  have within : ∀ i < 20, returningText[i]? = some '\r' → returningText[i + 1]? = some '\n' := by
    decide
  have followed : ∀ i : Nat, source.toList[i]? = some '\r' → source.toList[i + 1]? = some '\n' := by
    rw [text]
    exact fun i found => within i (List.getElem?_eq_some_iff.mp found).1 found
  have lexes : tokenize source = .ok tokens := by
    unfold tokenize
    rw [text]
    exact splits.tokensFrom_eq
  have plain : ∀ pieces last, Splits .start source.toList pieces last → PlainStrings pieces := by
    rw [text]
    intro pieces last other
    obtain ⟨rfl, -⟩ := splits.unique other
    unfold PlainStrings
    decide
  obtain ⟨short, -, file⟩ := line_ends_do_not_matter followed lexes plain
  refine ⟨followed, lexes, plain, ?_, ?_⟩
  · rw [text] at short
    exact short
  · rw [file .standard { tokens := true } "a.misty" _ (by cbv)]
    unfold Command.sourceEnding Command.process
    rw [lexes]
    rfl

end Script
