import Script.Proofs.Grammar.Shape
import Script.Proofs.Print.Grammar

/-!
# What is printed can be told apart

A list of spellings is `Legible` if each of them ends where the next one starts, or a blank keeps
them apart. A word or a numeral ends before anything but a word or a numeral; a delimiter ends
before anything; the other symbols end before an operand, since none of the two-character symbols
ends with what an operand starts with.

* `blockLegible`: statements are legible as they are printed.
-/

namespace Script

open Lexer Spelling

/-! ## Valid spellings -/

/-- With nothing behind it, a symbol is the longest one that starts as it does. -/
theorem valid_mark (symbol : Symbol) : (mark symbol).Valid := by
  refine Spells.symbol ?_
  rintro c tail ⟨⟩

theorem isWord_keyword (word : Keyword) : IsWord word.spelling.toList := by
  cases word <;> exact ⟨_, _, rfl, by decide, List.all_eq_true.mp (by decide)⟩

theorem startsOutside_nil (part : Char → Bool) : StartsOutside part [] := by
  rintro c tail ⟨⟩

theorem valid_keyword (word : Keyword) : (keyword word).Valid :=
  .keyword (isWord_keyword word) (startsOutside_nil _) String.ofList_toList.symm

theorem valid_name {text : String} (isName : IsName text) : (name text).Valid := by
  refine .identifier isName.1 (startsOutside_nil _) ?_
  show ∀ word, Keyword.spelling word ≠ String.ofList text.toList
  rw [String.ofList_toList]
  exact isName.2

theorem valid_numeral {text : List Char} {value : Number} (isNumeral : IsNumeral text value) :
    (Spelling.numeral text).Valid := by
  rcases isNumeral.1 with digits | ⟨whole, fraction, isWhole, isFraction, rfl⟩
  · refine .whole digits (startsOutside_nil _) ?_
    rintro c tail ⟨⟩
  · exact .decimal isWhole isFraction (startsOutside_nil _)

/-- What is written for the characters of a string stands for them. -/
theorem quoted_escape (value : List Char) : Quoted (value.flatMap escape) value := by
  induction value with
  | nil => exact .none
  | cons c value ih =>
    rw [List.flatMap_cons]
    unfold escape
    split
    · rename_i same
      subst same
      exact .escaped (.self (by decide) (by decide) (by decide)) ih
    · split
      · rename_i same
        subst same
        exact .escaped (.self (by decide) (by decide) (by decide)) ih
      · split
        · rename_i same
          subst same
          exact .escaped .newline ih
        · split
          · rename_i same
            subst same
            exact .escaped .tab ih
          · split
            · rename_i same
              subst same
              exact .escaped .carriageReturn ih
            · rename_i noEscape noQuote _ _ _
              exact .plain noQuote noEscape ih

theorem valid_string (value : String) : (Spelling.string value).Valid :=
  .string (quoted_escape value.toList)

/-! ## Where spellings end -/

/-- Spellings that would run into each other are kept apart, and all others end where the next one
starts. -/
abbrev Apart : Spelling → Spelling → Prop := Joined fun first second => touches first second = true

/-- A spelling that is told apart from whatever follows. -/
def Settled (spelling : Spelling) : Prop := ∀ next : Spelling, next.Valid → Apart spelling next

theorem startsOutside_append {part : Char → Bool} {raw : List Char} (nonempty : raw ≠ [])
    (outside : StartsOutside part raw) (text : List Char) : StartsOutside part (raw ++ text) := by
  cases raw with
  | nil => exact absurd rfl nonempty
  | cons c rest =>
    rintro d tail ⟨⟩
    exact outside c rest rfl

theorem raw_ne_nil {spelling : Spelling} (valid : spelling.Valid) : spelling.raw ≠ [] := by
  obtain ⟨c, rest, cons, _⟩ := takes_of_spells valid
  rw [cons]
  exact List.cons_ne_nil _ _

/-- What a spelling starts with tells which kind of token it is. -/
theorem start_cases {spelling : Spelling} (valid : spelling.Valid) {c : Char} {rest : List Char}
    (starts : spelling.raw = c :: rest) :
    c = '"' ∨ isDigit c = true ∨ isWordStart c = true ∨
      ∃ symbol, spelling.kind = .symbol symbol ∧ spelling.raw = symbol.spelling := by
  obtain ⟨kind, value, raw⟩ := spelling
  unfold Spelling.Valid at valid
  dsimp only at valid starts ⊢
  -- the spellings of a kind all start alike
  cases valid with
  | string =>
    cases starts
    exact .inl rfl
  | whole digits =>
    obtain ⟨d, tail, cons, digit⟩ := digits.starts []
    rw [List.append_nil, starts] at cons
    cases cons
    exact .inr (.inl digit)
  | decimal whole =>
    obtain ⟨d, tail, cons, digit⟩ := whole.starts _
    rw [starts] at cons
    cases cons
    exact .inr (.inl digit)
  | keyword isWord | identifier isWord =>
    obtain ⟨d, tail, cons, start, _⟩ := isWord
    rw [starts] at cons
    cases cons
    exact .inr (.inr (.inl start))
  | symbol => exact .inr (.inr (.inr ⟨_, rfl, rfl⟩))

/-- Only a point starts as a point does. -/
theorem raw_of_point {spelling : Spelling} (valid : spelling.Valid) {rest : List Char}
    (starts : spelling.raw = '.' :: rest) : spelling.raw = ['.'] := by
  rcases start_cases valid starts with quote | digit | start | ⟨symbol, _, spelled⟩
  · exact absurd quote (by decide)
  · exact absurd digit (by decide)
  · exact absurd start (by decide)
  · rw [spelled] at starts ⊢
    cases symbol <;> cases starts
    rfl

/-- A spelling that ends as words do is told apart from whatever follows, if it ends before
anything that is no part of a word. -/
theorem settled_of_word {spelling : Spelling}
    (last : spelling.raw.getLast?.any isWordPart = true) (noPoint : spelling.raw ≠ ['.'])
    (ends : ∀ behind, StartsOutside isWordPart behind →
      (∀ c tail, behind = '.' :: c :: tail → isDigit c = false) →
      Spells spelling.raw behind spelling.kind spelling.value) : Settled spelling := by
  intro next valid
  by_cases part : next.raw.head?.any isWordPart = true
  · exact .inl (show (_ && _) = true by rw [last, part]; rfl)
  -- no part of a word follows, so what is left is a point, which must be one without a digit behind
  -- it
  · refine .inr ⟨fun point => absurd point noPoint, fun text pointed => ends _ ?_ ?_⟩
    · refine startsOutside_append (raw_ne_nil valid) ?_ text
      intro c tail cons
      rw [cons] at part
      simpa using part
    · intro c tail starts
      obtain ⟨d, rest, cons, _⟩ := takes_of_spells valid
      rw [cons, List.cons_append, List.cons.injEq] at starts
      obtain ⟨rfl, behind⟩ := starts
      have point := raw_of_point valid cons
      cases cons.symm.trans point
      exact pointed point c tail behind

/-- A digit may stand inside a word, so a numeral would run into a word as well. -/
theorem isWordPart_of_isDigit {c : Char} (digit : isDigit c = true) : isWordPart c = true := by
  unfold isWordPart
  rw [digit, Bool.or_true]

theorem StartsOutside.noDigit {behind : List Char} (outside : StartsOutside isWordPart behind) :
    StartsOutside isDigit behind := by
  intro c tail cons
  have part := outside c tail cons
  unfold isWordPart at part
  exact (Bool.or_eq_false_iff.mp part).2

/-- The last character of a list whose characters all are of a class. -/
theorem getLast?_any {part : Char → Bool} {text : List Char} (nonempty : text ≠ [])
    (all : ∀ c ∈ text, part c = true) : text.getLast?.any part = true := by
  rw [List.getLast?_eq_some_getLast nonempty]
  exact all _ (List.getLast_mem nonempty)

/-- A word starts with a letter, and so it is not a point. -/
theorem IsWord.all {text : List Char} (isWord : IsWord text) :
    text ≠ [] ∧ text ≠ ['.'] ∧ ∀ c ∈ text, isWordPart c = true := by
  obtain ⟨c, rest, rfl, start, parts⟩ := isWord
  refine ⟨List.cons_ne_nil _ _, ?_, List.forall_mem_cons.mpr ⟨?_, parts⟩⟩
  · rintro ⟨⟩
    exact absurd start (by decide)
  · unfold isWordPart
    rw [start, Bool.true_or]

theorem settled_keyword (word : Keyword) : Settled (keyword word) := by
  obtain ⟨nonempty, noPoint, all⟩ := (isWord_keyword word).all
  refine settled_of_word (getLast?_any nonempty all) noPoint fun behind outside _ => ?_
  exact .keyword (isWord_keyword word) outside String.ofList_toList.symm

theorem settled_name {text : String} (isName : IsName text) : Settled (name text) := by
  obtain ⟨nonempty, noPoint, all⟩ := isName.1.all
  refine settled_of_word (getLast?_any nonempty all) noPoint fun behind outside _ => ?_
  refine .identifier isName.1 outside ?_
  show ∀ word, Keyword.spelling word ≠ String.ofList text.toList
  rw [String.ofList_toList]
  exact isName.2

/-- A numeral ends before anything but a digit and, if it has no point, a point with a digit behind
it. -/
theorem settled_numeral {text : List Char} {value : Number} (isNumeral : IsNumeral text value) :
    Settled (Spelling.numeral text) := by
  have parts : ∀ {digits : List Char}, Digits digits → ∀ c ∈ digits, isWordPart c = true :=
    fun digits c member => isWordPart_of_isDigit (digits.2 c member)
  rcases isNumeral.1 with digits | ⟨whole, fraction, isWhole, isFraction, rfl⟩
  · refine settled_of_word (getLast?_any digits.1 (parts digits)) ?_ ?_
    · intro point
      change text = ['.'] at point
      subst point
      exact absurd (digits.2 '.' List.mem_cons_self) (by decide)
    · intro behind outside noPoint
      exact .whole digits outside.noDigit noPoint
  · refine settled_of_word ?_ ?_ ?_
    · show (whole ++ '.' :: fraction).getLast?.any isWordPart = true
      rw [List.getLast?_append, List.getLast?_cons, List.getLast?_eq_some_getLast isFraction.1]
      exact parts isFraction _ (List.getLast_mem isFraction.1)
    · intro point
      -- a point alone is one character, a numeral with a point has at least two more
      have lengths := congrArg List.length point
      have nonempty := List.length_pos_of_ne_nil isWhole.1
      change (whole ++ '.' :: fraction).length = 1 at lengths
      rw [List.length_append, List.length_cons] at lengths
      omega
    · intro behind outside _
      exact .decimal isWhole isFraction outside.noDigit

/-- A string ends with its quote, whatever follows. -/
theorem settled_string (value : String) : Settled (Spelling.string value) := by
  intro next _
  refine .inr ⟨?_, fun text _ => .string (quoted_escape value.toList)⟩
  rintro ⟨⟩

/-- The symbols that no other symbol starts with. -/
def delimiters : List Symbol :=
  [.semicolon, .leftParen, .rightParen, .leftBrace, .rightBrace, .leftBracket, .rightBracket,
   .comma, .colon]

/-- A symbol that goes on from another one has two characters. -/
theorem spelling_of_longer {symbol longer : Symbol} {c : Char}
    (goesOn : longer.spelling = symbol.spelling ++ [c]) :
    (∀ d ∈ symbol.spelling, d ∈ ['-', '|', '&', '=', '!', '<', '>']) ∧
      c ∈ ['>', '&', '|', '='] := by
  obtain ⟨d, others, spelled, _⟩ := Symbol.spelling_cons symbol
  obtain ⟨e, more, spelledLonger, short, _⟩ := Symbol.spelling_cons longer
  -- all symbols of two characters, tried one by one
  have pairs : ∀ d' e', longer.spelling = [d', e'] →
      d' ∈ ['-', '|', '&', '=', '!', '<', '>'] ∧ e' ∈ ['>', '&', '|', '='] := by
    intro d' e' pair
    cases longer <;> cases pair <;> decide
  -- no symbol has three characters, so the shorter one has one
  have single : others = [] := by
    have lengths := congrArg List.length goesOn
    rw [spelled, spelledLonger] at lengths
    simp only [List.length_cons, List.length_append, List.length_nil] at lengths
    exact List.eq_nil_of_length_eq_zero (by omega)
  subst single
  rw [spelled] at goesOn ⊢
  obtain ⟨first, second⟩ := pairs d c goesOn
  exact ⟨by simpa using first, second⟩

/-- A symbol is told apart from what neither is a digit behind a point nor goes on from it. -/
theorem apart_mark {symbol : Symbol} {next : Spelling} (valid : next.Valid)
    (point : symbol.spelling = ['.'] → StartsOutside isDigit next.raw)
    (ends : ∀ c rest, next.raw = c :: rest →
      ∀ longer, Symbol.spelling longer ≠ symbol.spelling ++ [c]) : Apart (mark symbol) next := by
  refine .inr ⟨point, fun text _ => .symbol ?_⟩
  obtain ⟨d, rest, cons, _⟩ := takes_of_spells valid
  intro c tail behind
  rw [cons] at behind
  cases behind
  exact ends d rest cons

/-- No symbol of two characters starts with a delimiter. -/
theorem settled_delimiter {symbol : Symbol} (delimits : symbol ∈ delimiters) :
    Settled (mark symbol) := by
  have alone : ∀ symbol ∈ delimiters, ∃ d ∈ symbol.spelling,
      d ≠ '.' ∧ d ∉ ['-', '|', '&', '=', '!', '<', '>'] := by simp [delimiters, Symbol.spelling]
  obtain ⟨d, member, noPoint, noPair⟩ := alone symbol delimits
  intro next valid
  refine apart_mark valid ?_ ?_
  · intro single
    rw [single] at member
    exact absurd (List.mem_singleton.mp member) noPoint
  · intro c rest _ longer goesOn
    exact absurd ((spelling_of_longer goesOn).1 d member) noPair

/-- A symbol other than a point is told apart from an operand. -/
theorem apart_operand {symbol : Symbol} (noPoint : symbol ≠ .dot) {next : Spelling}
    (valid : next.Valid) (opens : Grammar.Shape.Opens next.kind) : Apart (mark symbol) next := by
  refine apart_mark valid ?_ ?_
  · intro single
    cases symbol <;> first | exact absurd rfl noPoint | cases single
  · intro c rest cons longer goesOn
    have second : c = '>' ∨ c = '&' ∨ c = '|' ∨ c = '=' := by
      simpa using (spelling_of_longer goesOn).2
    -- an operand starts with a quote, a digit, a letter or an opening symbol, and none of them is a
    -- second character
    rcases start_cases valid cons with rfl | digit | start | ⟨opening, kind, spelled⟩
    · simp at second
    · rcases second with rfl | rfl | rfl | rfl <;> exact absurd digit (by decide)
    · rcases second with rfl | rfl | rfl | rfl <;> exact absurd start (by decide)
    · rw [spelled] at cons
      rw [kind] at opens
      cases opens with
      | literal literal => cases literal
      | sign sign => cases sign <;> cases cons <;> simp at second
      | _ => cases cons; simp at second

/-- A point is told apart from a name. -/
theorem apart_member {text : String} (isName : IsName text) : Apart (mark .dot) (name text) := by
  obtain ⟨c, rest, cons, start, _⟩ := isName.1
  refine apart_mark (valid_name isName) ?_ ?_
  · intro _ d tail starts
    cases cons.symm.trans starts
    exact (isWordStart_solid start).2.1
  · intro d tail _ longer goesOn
    exact absurd ((spelling_of_longer goesOn).1 '.' List.mem_cons_self) (by decide)

/-! ## Legible lists -/

/-- Spellings that can be told apart. -/
inductive Legible : List Spelling → Prop
  | nil : Legible []
  | settled {spelling rest} : spelling.Valid → Settled spelling → Legible rest →
      Legible (spelling :: rest)
  | joined {spelling next rest} : spelling.Valid → Apart spelling next →
      Legible (next :: rest) → Legible (spelling :: next :: rest)

namespace Legible

variable {phrase others : List Spelling}

/-- A list whose last spelling is settled goes before any other; the last spelling of a legible list
always is. -/
theorem append (legible : Legible phrase) (behind : Legible others) :
    Legible (phrase ++ others) := by
  induction legible with
  | nil => exact behind
  | settled valid settles _ ih => exact .settled valid settles ih
  | joined valid apart _ ih => exact .joined valid apart ih

theorem valid (legible : Legible phrase) : ∀ spelling ∈ phrase, spelling.Valid := by
  induction legible with
  | nil => simp
  | settled valid _ _ ih => exact List.forall_mem_cons.mpr ⟨valid, ih⟩
  | joined valid _ _ ih => exact List.forall_mem_cons.mpr ⟨valid, ih⟩

theorem chain (legible : Legible phrase) : phrase.IsChain Apart := by
  induction legible with
  | nil => exact .nil
  -- a settled spelling is told apart from any valid one, so from the next
  | @settled spelling rest _ settles legible ih =>
    cases rest with
    | nil => exact .singleton _
    | cons next rest => exact .cons_cons (settles next (legible.valid next List.mem_cons_self)) ih
  | joined _ apart _ ih => exact .cons_cons apart ih

theorem delimiter {symbol : Symbol} (behind : Legible phrase)
    (delimits : symbol ∈ delimiters := by decide) : Legible (mark symbol :: phrase) :=
  .settled (valid_mark symbol) (settled_delimiter delimits) behind

theorem keyword {word : Keyword} (behind : Legible phrase) :
    Legible (Spelling.keyword word :: phrase) :=
  .settled (valid_keyword word) (settled_keyword word) behind

theorem name {text : String} (behind : Legible phrase) (isName : IsName text) :
    Legible (Spelling.name text :: phrase) :=
  .settled (valid_name isName) (settled_name isName) behind

theorem between {opening closing : Symbol} (inner : Legible phrase)
    (opens : opening ∈ delimiters := by decide) (closes : closing ∈ delimiters := by decide) :
    Legible (between opening phrase closing) :=
  (inner.append (nil.delimiter closes)).delimiter opens

theorem enclosed (legible : Legible phrase) (loose : Bool) : Legible (enclosed loose phrase) := by
  cases loose with
  | true => exact legible.between
  | false => exact legible

theorem separated {phrases : List (List Spelling)} (each : ∀ phrase ∈ phrases, Legible phrase) :
    Legible (separated phrases) := by
  induction phrases with
  | nil => exact .nil
  | cons phrase phrases ih =>
    rw [List.forall_mem_cons] at each
    cases phrases with
    | nil => exact each.1
    | cons next rest => exact each.1.append (ih each.2).delimiter

/-- A symbol stands before an operand. -/
theorem operand {symbol : Symbol} {e : Expr} (behind : Legible phrase)
    (read : Reads (Grammar.Level Grammar.Longest 0) phrase e) (noPoint : symbol ≠ .dot) :
    Legible (mark symbol :: phrase) := by
  obtain ⟨token, tail, cons, opens⟩ := (read []).opens
  rw [List.append_nil] at cons
  -- the phrase is read as an expression, so its first token starts an operand
  cases phrase with
  | nil => cases cons
  | cons next rest =>
    cases cons
    have valid := behind.valid next List.mem_cons_self
    exact .joined (valid_mark symbol) (apart_operand noPoint valid opens) behind

end Legible

/-! ## Expressions -/

variable {numeral : Number → List Char}

/-- An expression in parentheses, if need be, is one. -/
theorem reads_enclosed {e : Expr} (printable : e.Printable numeral) (loose : Bool) :
    Reads (Grammar.Level Grammar.Longest 0) (enclosed loose (e.spellings numeral)) e.erase :=
  ((e.reads printable).enclosed (n := 0) loose fun _ => Nat.zero_le _).expression

theorem ne_dot_of_symbol? {operator : BinaryOp} {symbol : Symbol}
    (written : operator.symbol? = some symbol) : symbol ≠ .dot := by
  rintro rfl
  cases operator <;> cases written

theorem ne_dot_of_sign {operator : UnaryOp} {symbol : Symbol}
    (written : operator.symbol? = some symbol) : symbol ≠ .dot := by
  rintro rfl
  cases operator <;> cases written

mutual

/-- An expression is legible as it is printed. -/
theorem Expr.legible : ∀ e : Expr, e.Printable numeral → Legible (e.spellings numeral)
  | .number _ _, printable => .settled (valid_numeral printable) (settled_numeral printable) .nil
  | .string _ value, _ => .settled (valid_string value) (settled_string value) .nil
  | .boolean _ _, _ | .null _, _ | .nan _, _ => Legible.nil.keyword
  | .identifier _ _, isName => Legible.nil.name isName
  | .array _ elements, printable => (Legible.separated (elementsLegible elements printable)).between
  | .object _ properties, printable =>
    (Legible.separated (propertiesLegible properties printable)).between
  | .binary _ operator left right, ⟨ruled, printableLeft, printableRight⟩ => by
    obtain ⟨symbol, written⟩ := Option.isSome_iff_exists.mp ruled
    have behind := (right.legible printableRight).enclosed (right.level ≤ operator.level)
    have read := reads_enclosed printableRight (right.level ≤ operator.level)
    unfold Expr.spellings
    rw [written]
    exact ((left.legible printableLeft).enclosed _).append
      (behind.operand read (ne_dot_of_symbol? written))
  | .unary _ operator operand, ⟨ruled, printable⟩ => by
    obtain ⟨symbol, written⟩ := Option.isSome_iff_exists.mp ruled
    have behind := (operand.legible printable).enclosed (operand.level < prefixLevel)
    have read := reads_enclosed printable (operand.level < prefixLevel)
    unfold Expr.spellings
    rw [written]
    exact behind.operand read (ne_dot_of_sign written)
  | .member _ object property, ⟨printable, isName⟩ =>
    ((object.legible printable).enclosed _).append
      (.joined (valid_mark .dot) (apart_member isName) (Legible.nil.name isName))
  | .computed _ object key, ⟨printable, printableKey⟩ =>
    ((object.legible printable).enclosed _).append (key.legible printableKey).between
  | .call _ callee arguments, ⟨printable, printableArguments⟩ =>
    ((callee.legible printable).enclosed _).append
      (Legible.separated (elementsLegible arguments printableArguments)).between

theorem elementsLegible : ∀ elements : List Expr, ElementsPrintable numeral elements →
    ∀ phrase ∈ elementSpellings numeral elements, Legible phrase
  | [], _ => by simp [elementSpellings]
  | e :: rest, ⟨printable, printableRest⟩ =>
    List.forall_mem_cons.mpr ⟨e.legible printable, elementsLegible rest printableRest⟩

theorem propertiesLegible : ∀ properties : List (String × Expr),
    PropertiesPrintable numeral properties →
    ∀ phrase ∈ propertySpellings numeral properties, Legible phrase
  | [], _ => by simp [propertySpellings]
  | (_, e) :: rest, ⟨isName, printable, printableRest⟩ =>
    List.forall_mem_cons.mpr
      ⟨(e.legible printable).delimiter.name isName, propertiesLegible rest printableRest⟩

end

/-! ## Statements -/

namespace Legible

theorem declaration {text : String} {constant : Bool} {value : Expr} (isName : IsName text)
    (printable : value.Printable numeral) :
    Legible (declarationSpellings numeral text constant value) :=
  (((value.legible printable).operand (Expr.expression printable) (by decide)).name isName).keyword

theorem assignment (target : Expr) {value : Expr} (printable : target.Printable numeral)
    (printableValue : value.Printable numeral) :
    Legible (assignmentSpellings numeral target value) :=
  (target.legible printable).append
    ((value.legible printableValue).operand (Expr.expression printableValue) (by decide))

theorem semicolon {phrase : List Spelling} (legible : Legible phrase) :
    Legible (phrase ++ [mark .semicolon]) := legible.append nil.delimiter

theorem parameters {parameters : List String} (names : ∀ text ∈ parameters, IsName text) :
    Legible (parameterSpellings parameters) := by
  refine (separated ?_).between
  simp only [List.forall_mem_map]
  exact fun text member => nil.name (names text member)

end Legible

mutual

/-- A statement is legible as it is printed. -/
theorem Stmt.legible : ∀ s : Stmt, s.Printable numeral → Legible (s.spellings numeral)
  | .declare _ _ _ _, ⟨isName, printable⟩ => (Legible.declaration isName printable).semicolon
  | .assign _ text _, ⟨isName, printable⟩ =>
    (Legible.assignment (.identifier default text) isName printable).semicolon
  | .assignMember _ object property _, ⟨_, printable, isName, printableValue⟩ =>
    (Legible.assignment (.member default object property) ⟨printable, isName⟩
      printableValue).semicolon
  | .assignComputed _ object key _, ⟨_, printable, printableKey, printableValue⟩ =>
    (Legible.assignment (.computed default object key) ⟨printable, printableKey⟩
      printableValue).semicolon
  | .procedure _ _ _ body, ⟨isName, names, _, printable⟩ =>
    (((Legible.parameters names).append (blockLegible body printable).between).name isName).keyword
  | .returns _ value, printable => (value.legible printable).semicolon.keyword
  | .leave _, _ | .proceed _, _ => Legible.nil.delimiter.keyword
  | .incase _ condition body fallback, ⟨printable, printableBody, printableFallback⟩ =>
    ((condition.legible printable).between.append
      ((blockLegible body printableBody).between.append
        (fallback.legible printableFallback))).keyword
  | .drift _ (.declare _ _ _ _) condition (.assign _ text _) body,
      ⟨isName, printableInit, printableTest, isTarget, printable, printableBody⟩ =>
    (((Legible.declaration isName printableInit).append
      ((condition.legible printableTest).append
        (Legible.assignment (.identifier default text) isTarget
          printable).delimiter).delimiter).between.append
      (blockLegible body printableBody).between).keyword
  | .through _ _ _ iterable body, ⟨isName, printable, printableBody⟩ =>
    ((((iterable.legible printable).keyword.name isName).keyword).between.append
      (blockLegible body printableBody).between).keyword
  | .expression value, printable => (value.legible printable).semicolon

theorem Fallback.legible : ∀ fallback : Fallback, fallback.Printable numeral →
    Legible (fallback.spellings numeral)
  | .nothing, _ => .nil
  | .block body, printable => (blockLegible body printable).between.keyword
  | .elif _ condition body fallback, ⟨printable, printableBody, printableFallback⟩ =>
    ((condition.legible printable).between.append
      ((blockLegible body printableBody).between.append
        (fallback.legible printableFallback))).keyword

/-- Statements are legible as they are printed. -/
theorem blockLegible : ∀ body : List Stmt, BlockPrintable numeral body →
    Legible (blockSpellings numeral body)
  | [], _ => .nil
  | s :: rest, ⟨printable, printableRest⟩ =>
    (s.legible printable).append (blockLegible rest printableRest)

end

end Script
