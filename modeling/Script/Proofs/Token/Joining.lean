import Script.Proofs.Token.Lexing

/-!
# The tokens of joined texts

Behind a line end, a text has the tokens that it has by itself, only further down
(`tokensFrom_relocate`), and what stands before is not touched: no token reaches over a line end,
and a comment ends there (`tokensFrom_join`).
-/

namespace Script

/-- A token whose text has been moved. -/
def Token.relocate (shift : Position → Position) (token : Token) : Token :=
  { token with position := shift token.position }

/-- The position so many lines further down. -/
def Position.down (lines : Int) (position : Position) : Position :=
  ⟨position.line + lines, position.column⟩

namespace Lexer

/-! ## Gaps -/

/-- What stands behind a token does not change the gap before it. -/
theorem splitGap_append_of_cons {inComment : Bool} {text gap rest : List Char} {c : Char}
    (found : splitGap inComment text = (gap, c :: rest)) (more : List Char) :
    splitGap inComment (text ++ more) = (gap, c :: (rest ++ more)) := by
  induction text generalizing inComment gap with
  | nil => cases found
  | cons d text ih =>
    unfold splitGap at found
    rw [List.cons_append]
    unfold splitGap
    split at found
    · rename_i comment
      rw [if_pos comment]
      cases inner : splitGap (d != '\n') text with
      | mk innerGap after =>
        simp only [inner, Prod.mk.injEq] at found
        obtain ⟨rfl, rfl⟩ := found
        simp only [ih inner]
    · rename_i outside
      rw [if_neg outside]
      split at found
      · rename_i blank
        rw [if_pos blank]
        cases inner : splitGap (decide (d = '#')) text with
        | mk innerGap after =>
          simp only [inner, Prod.mk.injEq] at found
          obtain ⟨rfl, rfl⟩ := found
          simp only [ih inner]
      · rename_i solid
        rw [if_neg solid]
        cases found
        rfl

/-- A line end goes on with the gap before it, and ends a comment. -/
theorem splitGap_append_of_nil {inComment : Bool} {text : List Char}
    (all : (splitGap inComment text).2 = []) (more : List Char) :
    splitGap inComment (text ++ '\n' :: more) =
      (text ++ '\n' :: (splitGap false more).1, (splitGap false more).2) := by
  induction text generalizing inComment with
  | nil => cases inComment <;> rfl
  | cons d text ih =>
    generalize splitGap false more = following at ih ⊢
    unfold splitGap at all
    rw [List.cons_append]
    unfold splitGap
    split at all
    · rename_i comment
      rw [if_pos comment]
      simp only [ih all, List.cons_append]
    · rename_i outside
      rw [if_neg outside]
      split at all
      · rename_i blank
        rw [if_pos blank]
        simp only [ih all, List.cons_append]
      · cases all

/-! ## Tokens before a gap -/

/-- A gap starts with a blank or a comment. -/
def isGapStart (c : Char) : Bool := isSpace c || c = '#'

theorem isGapStart_cases {c : Char} (gap : isGapStart c = true) :
    c = ' ' ∨ c = '\t' ∨ c = '\r' ∨ c = '\n' ∨ c = '#' := by
  simpa [isGapStart, isSpace, or_assoc] using gap

theorem not_isDigit_of_gap {c : Char} (gap : isGapStart c = true) : isDigit c = false := by
  rcases isGapStart_cases gap with rfl | rfl | rfl | rfl | rfl <;> decide

theorem not_isWordPart_of_gap {c : Char} (gap : isGapStart c = true) : isWordPart c = false := by
  rcases isGapStart_cases gap with rfl | rfl | rfl | rfl | rfl <;> decide

/-- No symbol goes on with a gap. -/
theorem ofSpelling?_of_gap {c d : Char} (gap : isGapStart d = true) :
    Symbol.ofSpelling? [c, d] = none := by
  unfold Symbol.ofSpelling?
  rw [List.find?_eq_none]
  intro mark _
  have noGap : ∀ first, mark.spelling ≠ [first, d] := by
    intro first
    rcases isGapStart_cases gap with rfl | rfl | rfl | rfl | rfl <;>
      cases mark <;> simp [Symbol.spelling]
  simpa using noGap c

theorem splitString_cons {c : Char} (quote : c ≠ '"') (escape : c ≠ '\\') (rest : List Char) :
    splitString (c :: rest) =
      (splitString rest).map fun found => (c :: found.1, c :: found.2.1, found.2.2) := by
  rw [splitString.eq_def]
  split
  · contradiction
  · rename_i cons
    cases cons
    exact absurd rfl quote
  · rename_i cons
    cases cons
    exact absurd rfl escape
  · rename_i cons
    cases cons
    cases splitString rest <;> rfl

theorem splitString_append_right {text value raw after : List Char}
    (found : splitString text = some (value, raw, after)) (more : List Char) :
    splitString (text ++ more) = some (value, raw, after ++ more) := by
  fun_induction splitString text generalizing value raw after with
  | case1 => cases found
  | case2 rest =>
    cases found
    rfl
  | case3 c rest value' raw' after' inner ih =>
    cases found
    simp only [List.cons_append, splitString, ih inner]
  | case4 => cases found
  | case5 c rest quote escape value' raw' after' inner ih =>
    cases found
    have plain : c ≠ '\\' := by
      rintro rfl
      cases rest with
      | nil => cases inner
      | cons d rest => exact escape d rest rfl rfl
    rw [List.cons_append, splitString_cons quote plain, ih inner]
    rfl
  | case6 => cases found

theorem takeWhile_append_gap {p : Char → Bool} {d : Char} (stop : p d = false)
    (text more : List Char) : (text ++ d :: more).takeWhile p = text.takeWhile p := by
  induction text with
  | nil => simp [stop]
  | cons c text ih => simp only [List.cons_append, List.takeWhile_cons, ih]

theorem dropWhile_append_gap {p : Char → Bool} {d : Char} (stop : p d = false)
    (text more : List Char) :
    (text ++ d :: more).dropWhile p = text.dropWhile p ++ d :: more := by
  induction text with
  | nil => simp [stop]
  | cons c text ih =>
    simp only [List.cons_append, List.dropWhile_cons, ih]
    split <;> rfl

theorem splitNumeral_append_gap {d : Char} (gap : isGapStart d = true) (text more : List Char) :
    splitNumeral (text ++ d :: more) =
      ((splitNumeral text).1, (splitNumeral text).2 ++ d :: more) := by
  have stop := not_isDigit_of_gap gap
  have noPoint : d ≠ '.' := by
    rintro rfl
    cases gap
  unfold splitNumeral
  rw [takeWhile_append_gap stop, dropWhile_append_gap stop]
  generalize text.dropWhile isDigit = after
  cases after with
  | nil => simp [noPoint]
  | cons c rest =>
    by_cases point : c = '.'
    · subst point
      cases rest with
      | nil => simp [stop]
      | cons e rest =>
        simp only [List.cons_append]
        split
        · rw [← List.cons_append, takeWhile_append_gap stop, dropWhile_append_gap stop]
        · rfl
    · simp [point]

/-- The longest symbol is the same before a gap. -/
theorem symbol?_append_gap {d : Char} (gap : isGapStart d = true) (c : Char)
    (rest more : List Char) : symbol? c (rest ++ d :: more) = symbol? c rest := by
  cases rest with
  | nil =>
    show (Symbol.ofSpelling? [c, d]).or (Symbol.ofSpelling? [c]) = Symbol.ofSpelling? [c]
    rw [ofSpelling?_of_gap gap, Option.none_or]
  | cons e rest => rfl

/-- A token before a gap is the token that the text has without it. -/
theorem lexeme_append_gap {c d : Char} {rest : List Char} {found : Lexeme}
    (gap : isGapStart d = true) (taken : lexeme c rest = .ok found) (more : List Char) :
    lexeme c (rest ++ d :: more) = .ok { found with rest := found.rest ++ d :: more } := by
  unfold lexeme at taken ⊢
  split at taken
  · rename_i quote
    rw [if_pos quote]
    split at taken
    · rename_i inner
      cases taken
      rw [splitString_append_right inner]
    · cases taken
  · rename_i quote
    rw [if_neg quote]
    split at taken
    · rename_i digit
      rw [if_pos digit, ← List.cons_append, splitNumeral_append_gap gap]
      cases taken
      rfl
    · rename_i digit
      rw [if_neg digit]
      split at taken
      · rename_i word
        have stop := not_isWordPart_of_gap gap
        rw [if_pos word, takeWhile_append_gap stop, dropWhile_append_gap stop]
        cases taken
        rfl
      · rename_i word
        rw [if_neg word, symbol?_append_gap gap]
        split at taken
        · rename_i mark inner
          cases taken
          have whole := congrArg List.length (symbol?_append inner)
          rw [List.length_append, List.length_drop, List.length_cons] at whole
          simp only
          rw [List.drop_append_of_le_length (by omega)]
        · cases taken

/-! ## Tokens -/

/-- A text that is a gap goes on with the text behind the line end. -/
theorem nextToken_join_of_gap {text : List Char} (gap : splitGap false text = (text, []))
    (place : Place) (more : List Char) :
    nextToken place (text ++ '\n' :: more) = nextToken ((place.after text).next '\n') more := by
  have all : (splitGap false text).2 = [] := by rw [gap]
  unfold nextToken
  rw [splitGap_append_of_nil all]
  simp only [Place.after_append]
  rfl

/-- A token stays if a line end and more text follow. -/
theorem nextToken_join_of_token {text gap rest : List Char} {c : Char} {found : Lexeme}
    (behind : splitGap false text = (gap, c :: rest))
    (taken : lexeme c rest = .ok found) (place : Place) (more : List Char) :
    nextToken place (text ++ '\n' :: more) =
      ⟨.ok ⟨found.kind, String.ofList found.value, (place.after gap).toPosition⟩,
        (place.after gap).after found.raw, found.rest ++ '\n' :: more⟩ := by
  unfold nextToken
  rw [splitGap_append_of_cons behind]
  simp only [lexeme_append_gap (d := '\n') rfl taken]

/-- A token, the gap before it and the text behind it make up the text. -/
theorem after_rest {place : Place} {text gap rest : List Char} {c : Char} {found : Lexeme}
    (behind : splitGap false text = (gap, c :: rest)) (taken : lexeme c rest = .ok found) :
    ((place.after gap).after found.raw).after found.rest = place.after text := by
  have whole := splitGap_append false text
  rw [behind] at whole
  rw [← Place.after_append, lexeme_append taken, ← Place.after_append, whole]

theorem tokensFrom_cons {place : Place} {text : List Char} {token : Token} {tokens : List Token}
    (read : (nextToken place text).result = .ok token) (goesOn : token.kind ≠ .endOfInput)
    (others : tokensFrom (nextToken place text).place (nextToken place text).rest = .ok tokens) :
    tokensFrom place text = .ok (token :: tokens) := by
  rw [tokensFrom]
  split
  · rename_i fault failed
    rw [read] at failed
    cases failed
  · rename_i found same
    rw [read] at same
    cases same
    simp only [goesOn, dite_false, others]

theorem tokensFrom_end {place : Place} {text : List Char} {token : Token}
    (read : (nextToken place text).result = .ok token) (ended : token.kind = .endOfInput) :
    tokensFrom place text = .ok [token] := by
  rw [tokensFrom]
  split
  · rename_i fault failed
    rw [read] at failed
    cases failed
  · rename_i found same
    rw [read] at same
    cases same
    simp only [ended, dite_true]

/-- Tokens before one end of input. -/
def Ended (tokens front : List Token) : Prop :=
  ∃ final, tokens = front ++ [final] ∧ final.kind = .endOfInput ∧
    ∀ token ∈ front, token.kind ≠ .endOfInput

theorem exists_ended_of_tokensFrom {place : Place} {text : List Char} {tokens : List Token}
    (split : tokensFrom place text = .ok tokens) : ∃ front, Ended tokens front := by
  fun_induction tokensFrom place text generalizing tokens with
  | case1 => cases split
  | case2 place text token read ended =>
    cases split
    exact ⟨[], token, rfl, ended, fun _ member => by cases member⟩
  | case3 place text token read goesOn rest found ih =>
    cases split
    obtain ⟨front, final, rfl, ended, all⟩ := ih found
    exact ⟨token :: front, final, rfl, ended, List.forall_mem_cons.mpr ⟨goesOn, all⟩⟩
  | case4 => cases split

/-- The tokens of two texts with a line end between them: those of the first up to its end, and
those that the second has at its place. -/
theorem tokensFrom_join {place : Place} {text : List Char} {tokens front : List Token}
    (split : tokensFrom place text = .ok tokens) (ends : Ended tokens front) {more : List Char}
    {others : List Token} (behind : tokensFrom ((place.after text).next '\n') more = .ok others) :
    tokensFrom place (text ++ '\n' :: more) = .ok (front ++ others) := by
  fun_induction tokensFrom place text generalizing tokens front with
  | case1 => cases split
  | case2 place text token read ended =>
    cases split
    obtain ⟨final, single, _, _⟩ := ends
    obtain ⟨rfl, _⟩ := List.append_eq_singleton_iff.mp single.symm |>.resolve_right (by simp)
    rcases nextToken_cases read with ⟨gap, _⟩ | ⟨gap, c, rest, found, _, taken, step⟩
    · rw [tokensFrom, nextToken_join_of_gap gap]
      rw [tokensFrom] at behind
      exact behind
    · rw [step] at read
      cases read
      exact absurd ended (lexeme_kind_ne_end taken)
  | case3 place text token read goesOn rest found ih =>
    cases split
    rcases nextToken_cases read with ⟨_, rfl⟩ | ⟨gap, c, tail, lexed, spaced, taken, step⟩
    · exact absurd rfl goesOn
    · obtain ⟨final, whole, ended, all⟩ := ends
      cases front with
      | nil =>
        cases whole
        exact absurd ended goesOn
      | cons head front =>
        cases whole
        rw [step] at ih found read
        rw [after_rest spaced taken] at ih
        have joined := ih found ⟨final, rfl, ended, (List.forall_mem_cons.mp all).2⟩ behind
        have joinedStep := nextToken_join_of_token spaced taken place more
        refine tokensFrom_cons (by rw [joinedStep]; exact read) goesOn ?_
        rw [joinedStep]
        exact joined
  | case4 => cases split

/-! ## Further down -/

/-- Places further down in a text. -/
def Below (lines : Int) (upper lower : Place) : Prop :=
  lower.toPosition = upper.toPosition.down lines

theorem Below.after {lines : Int} {upper lower : Place} (below : Below lines upper lower)
    (text : List Char) : Below lines (upper.after text) (lower.after text) := by
  induction text generalizing upper lower with
  | nil => exact below
  | cons c text ih =>
    refine ih ?_
    obtain ⟨⟨line, column⟩, offset⟩ := lower
    cases below
    unfold Below Position.down Place.next
    split
    · simp only [Int.add_right_comm]
    · rfl

/-- A token is the same further down. -/
theorem nextToken_below {lines : Int} {upper lower : Place} (below : Below lines upper lower)
    {text : List Char} {token : Token} (read : (nextToken upper text).result = .ok token) :
    (nextToken lower text).result = .ok (token.relocate (Position.down lines)) ∧
      (nextToken lower text).rest = (nextToken upper text).rest ∧
      Below lines (nextToken upper text).place (nextToken lower text).place := by
  have belowGap := below.after (splitGap false text).1
  unfold nextToken at read ⊢
  generalize splitGap false text = split at read belowGap ⊢
  obtain ⟨gap, after⟩ := split
  cases after with
  | nil =>
    cases read
    exact ⟨congrArg (fun position => Except.ok (Token.endAt position)) belowGap, rfl, belowGap⟩
  | cons c rest =>
    cases taken : lexeme c rest with
    | ok found =>
      simp only [taken] at read ⊢
      cases read
      refine ⟨?_, trivial, belowGap.after found.raw⟩
      exact congrArg (fun position => Except.ok (Token.mk found.kind _ position)) belowGap
    | error cause => cases cause <;> simp [taken] at read

/-- A text has the same tokens further down. -/
theorem tokensFrom_below {lines : Int} {upper lower : Place} {text : List Char}
    {tokens : List Token} (below : Below lines upper lower)
    (split : tokensFrom upper text = .ok tokens) :
    tokensFrom lower text = .ok (tokens.map (Token.relocate (Position.down lines))) := by
  fun_induction tokensFrom upper text generalizing tokens lower with
  | case1 => cases split
  | case2 place text token read ended =>
    cases split
    exact tokensFrom_end (nextToken_below below read).1 ended
  | case3 place text token read goesOn rest found ih =>
    cases split
    obtain ⟨readBelow, sameRest, belowRest⟩ := nextToken_below below read
    refine tokensFrom_cons readBelow goesOn ?_
    rw [sameRest]
    exact ih belowRest found
  | case4 => cases split

end Lexer

open Lexer

/-- The tokens of two texts joined by a line end are those of the first, without its end, and those
of the second, some lines further down. -/
theorem tokenize_join {a b : String} {first second front : List Token}
    (splitFirst : tokenize a = .ok first) (ends : Ended first front)
    (splitSecond : tokenize b = .ok second) :
    ∃ lines, tokenize (a ++ "\n" ++ b) =
      .ok (front ++ second.map (Token.relocate (Position.down lines))) := by
  let lower := (Place.start.after a.toList).next '\n'
  have below : Below (Place.start.after a.toList).line .start lower := by
    show Position.mk _ _ = Position.mk _ _
    rw [Int.add_comm]
    rfl
  refine ⟨(Place.start.after a.toList).line, ?_⟩
  unfold tokenize
  rw [String.toList_append, String.toList_append, List.append_assoc]
  exact tokensFrom_join splitFirst ends (tokensFrom_below below splitSecond)

end Script
