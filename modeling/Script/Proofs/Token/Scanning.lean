import Mathlib
import Script.Proofs.Token.Splitting

/-!
# Reading tokens one character at a time

A lexer that sees the text only through a reader: it looks ahead, asks for the end and takes single
characters, which may fail, and it does so in loops, which may go on for ever. `Scan.token` is that
lexer. From every place inside a text it ends, never takes a character that is not there, and does
what `Reader.token` does.

* `reads_nextToken`: all that reading one token can do, said by gaps and spellings.
* `Scan.token_ends`, `Scan.tokens_ends`: the loops end with what `Reader.token` and `tokensFrom`
  give.
-/

namespace Script

open Lexer

/-! ## All that reading one token can do -/

namespace Lexer

/-- What reading one token from a place gives: a token behind a gap, the end behind a last gap, or
one of two faults behind a gap. A string that does not end takes the whole text, and a character
that starts no token is not taken. -/
inductive Reads (place : Place) : List Char → Step → Prop
  | token {gap raw rest kind value} : Gap (raw ++ rest) gap → Spells raw rest kind value →
      Reads place (gap ++ (raw ++ rest))
        ⟨.ok ⟨kind, String.ofList value, (place.after gap).toPosition⟩,
          (place.after gap).after raw, rest⟩
  | ended {gap} : Gap [] gap →
      Reads place gap ⟨.ok (.endAt (place.after gap).toPosition), place.after gap, []⟩
  | unterminated {gap rest} : Gap ('"' :: rest) gap →
      (∀ raw value behind, Quoted raw value → raw ++ '"' :: behind ≠ rest) →
      Reads place (gap ++ '"' :: rest)
        ⟨.error ⟨.unterminatedString, (place.after gap).toPosition⟩,
          (place.after gap).after ('"' :: rest), []⟩
  | unexpected {gap c rest} : Gap (c :: rest) gap → isGapStart c = false → c ≠ '"' →
      (∀ raw behind kind value, Spells raw behind kind value → raw ++ behind ≠ c :: rest) →
      Reads place (gap ++ c :: rest)
        ⟨.error ⟨.unexpectedCharacter c, (place.after gap).toPosition⟩, place.after gap, c :: rest⟩

/-- A string does not end if no closing quote stands behind quoted text. -/
theorem splitString_eq_none_iff {text : List Char} : splitString text = none ↔
    ∀ raw value behind, Quoted raw value → raw ++ '"' :: behind ≠ text := by
  constructor
  · rintro none raw value behind quoted rfl
    cases none.symm.trans (splitString_of_quoted quoted behind)
  · intro never
    cases found : splitString text with
    | none => rfl
    | some parts =>
      obtain ⟨value, raw, behind⟩ := parts
      obtain ⟨inner, rfl, quoted⟩ := quoted_of_splitString found
      have whole := splitString_append found
      rw [List.append_assoc] at whole
      exact absurd whole (never inner value behind quoted)

/-- No token starts with a string that does not end. -/
theorem lexeme_unterminated {c : Char} {rest : List Char}
    (failed : lexeme c rest = .error .unterminatedString) :
    c = '"' ∧ splitString rest = none := by
  unfold lexeme at failed
  split at failed
  · rename_i quote
    split at failed
    · cases failed
    · rename_i none
      exact ⟨quote, none⟩
  · split at failed
    · cases failed
    · split at failed
      · cases failed
      · split at failed <;> cases failed

/-- No token starts with a character that is not a quote, a digit, the start of a word or that of a
symbol. -/
theorem lexeme_unexpected {c d : Char} {rest : List Char}
    (failed : lexeme c rest = .error (.unexpectedCharacter d)) :
    d = c ∧ c ≠ '"' ∧ isDigit c = false ∧ isWordStart c = false ∧ symbol? c rest = none := by
  unfold lexeme at failed
  split at failed
  · split at failed <;> cases failed
  · rename_i quote
    split at failed
    · cases failed
    · rename_i digit
      split at failed
      · cases failed
      · rename_i word
        split at failed
        · cases failed
        · rename_i symbol
          cases failed
          exact ⟨rfl, quote, Bool.eq_false_iff.mpr digit, Bool.eq_false_iff.mpr word, symbol⟩

/-- Every text has such a reading: what is left behind the gap is nothing, a token, or one of the
two faults. -/
theorem reads_nextToken (place : Place) (text : List Char) :
    Reads place text (nextToken place text) := by
  unfold nextToken
  cases same : splitGap false text with
  | mk gap after =>
    obtain ⟨rfl, isGap, solid⟩ := splitGap_eq_iff.mp same
    -- the gap is the longest one, so what is behind it is no blank and no comment
    cases after with
    | nil =>
      rw [List.append_nil]
      exact .ended isGap
    | cons c rest =>
      cases taken : lexeme c rest with
      | ok found =>
        obtain ⟨whole, spells⟩ := lexeme_eq_ok_iff.mp taken
        simp only [taken]
        rw [← whole] at isGap ⊢
        exact .token isGap spells
      | error cause =>
        simp only [taken]
        cases cause with
        | unterminatedString =>
          obtain ⟨rfl, none⟩ := lexeme_unterminated taken
          exact .unterminated isGap (splitString_eq_none_iff.mp none)
        | unexpectedCharacter d =>
          obtain ⟨rfl, quote, _⟩ := lexeme_unexpected taken
          refine .unexpected isGap (solid _ _ rfl) quote ?_
          intro raw behind kind value spells whole
          have lexed : lexeme _ rest = .ok ⟨kind, value, raw, behind⟩ :=
            lexeme_eq_ok_iff.mpr ⟨whole, spells⟩
          cases taken.symm.trans lexed

end Lexer

/-! ## Readers inside a text -/

namespace Reader

/-- The reader behind a stretch of text. -/
def skip (reader : Reader) (text : List Char) : Reader :=
  { reader with place := reader.place.after text }

/-- A reader that stands inside its text, before the rest. -/
def Faces (reader : Reader) (rest : List Char) : Prop :=
  ∃ read, reader.source = read ++ rest ∧ reader.place.offset = read.length

variable {reader : Reader} {c : Char} {text rest : List Char}

theorem skip_skip (reader : Reader) (first second : List Char) :
    (reader.skip first).skip second = reader.skip (first ++ second) := by
  unfold skip
  rw [Place.after_append]

theorem faces_ofString (source : String) : (ofString source).Faces source.toList := ⟨[], rfl, rfl⟩

namespace Faces

theorem rest_eq (faces : reader.Faces rest) : reader.rest = rest := by
  obtain ⟨read, source, offset⟩ := faces
  unfold Reader.rest
  rw [source, offset, Int.toNat_natCast, List.drop_left]

theorem skip (text : List Char) (faces : reader.Faces (text ++ rest)) :
    (reader.skip text).Faces rest := by
  obtain ⟨read, source, offset⟩ := faces
  refine ⟨read ++ text, by rw [List.append_assoc]; exact source, ?_⟩
  show (reader.place.after text).offset = _
  rw [Place.after_offset, offset, List.length_append, Int.natCast_add]

theorem atEnd (faces : reader.Faces rest) : reader.atEnd = rest.isEmpty := by
  obtain ⟨read, source, offset⟩ := faces
  unfold Reader.atEnd
  rw [source, offset, List.length_append]
  cases rest with
  | nil => simp
  | cons c rest => simp

theorem peek? (faces : reader.Faces rest) (distance : Nat) :
    reader.peek? distance = rest[distance]? := by
  obtain ⟨read, source, offset⟩ := faces
  unfold Reader.peek?
  simp only [source, offset]
  rw [if_neg (by omega), ← Int.natCast_add, Int.toNat_natCast,
    List.getElem?_append_right (Nat.le_add_right _ _), Nat.add_sub_cancel_left]

theorem next (faces : reader.Faces (c :: rest)) : reader.next = .ok (c, reader.skip [c]) := by
  have notEnd := faces.atEnd
  obtain ⟨read, source, offset⟩ := faces
  have upcoming : reader.upcoming? = some c := by
    unfold upcoming?
    rw [source, offset, Offset.index?_natCast (by simp), Option.bind_some]
    simp
  unfold Reader.next
  rw [notEnd, upcoming]
  rfl

end Faces

/-- A reader inside its text reads what the lexer reads from that text. -/
theorem token_eq (faces : reader.Faces text) : reader.token =
    ((nextToken reader.place text).result,
      { reader with place := (nextToken reader.place text).place }) := by
  unfold token
  rw [faces.rest_eq]

theorem Faces.skip_all (faces : reader.Faces text) : (reader.skip text).Faces [] := by
  apply Faces.skip
  rwa [List.append_nil]

/-- A token leaves the reader inside the text. -/
theorem faces_token (faces : reader.Faces text) :
    reader.token.2.Faces (nextToken reader.place text).rest := by
  have read := reads_nextToken reader.place text
  rw [token_eq faces]
  generalize nextToken reader.place text = step at read
  cases read with
  | @token gap raw => exact (faces.skip gap).skip raw
  | ended => exact faces.skip_all
  | @unterminated gap => exact (faces.skip gap).skip_all
  | @unexpected gap => exact faces.skip gap

end Reader

/-! ## A lexer that takes single characters -/

/-- Why reading tokens stops. -/
inductive Stop where
  /-- There is no character to take. -/
  | read (fault : ReadFault)
  | lexical (fault : LexFault)
deriving DecidableEq, Repr

/-- A computation that moves a reader. If it stops, the reader stays where it has come to, and it
may never end. -/
abbrev Scan := ExceptT Stop (StateT Reader Part)

namespace Scan

/-- One turn of a loop, with the reader as a part of its state. -/
def turnFrom {σ α : Type} (turn : σ → Scan (α ⊕ σ)) :
    σ × Reader →. (Except Stop α × Reader) ⊕ (σ × Reader) := fun (state, reader) =>
  ((turn state).run.run reader).map fun
    | (.ok (.inl result), finish) => .inl (.ok result, finish)
    | (.ok (.inr next), finish) => .inr (next, finish)
    | (.error stop, finish) => .inl (.error stop, finish)

/-- Makes turns until one gives a result (`.inl`) or stops, perhaps for ever. -/
noncomputable def loop {σ α : Type} (turn : σ → Scan (α ⊕ σ)) (state : σ) : Scan α :=
  .mk fun reader => (turnFrom turn).fix (state, reader)

/-- Takes a character. -/
def advance : Scan Char := do
  match (← get).next with
  | .ok (c, reader) =>
    set reader
    return c
  | .error fault => throw (.read fault)

/-- Looks at the character at a distance. -/
def peek (distance : Nat) : Scan (Option Char) := return (← get).peek? distance

def atEnd : Scan Bool := return (← get).atEnd

/-- Takes the characters of a class as long as there are any. -/
noncomputable def takeWhile (part : Char → Bool) : (taken : List Char) → Scan (List Char) :=
  loop fun taken => do
    if !(← atEnd) && (← peek 0).any part then
      let c ← advance
      return .inr (taken ++ [c])
    else return .inl taken

noncomputable def comment : Scan Unit := do
  let _ ← takeWhile (· != '\n') []

/-- Takes blanks and comments as long as there are any. -/
noncomputable def gap : Unit → Scan Unit :=
  loop fun _ => do
    if ← atEnd then return .inl ()
    let c ← peek 0
    if c.all isSpace then
      let _ ← advance
      return .inr ()
    else if c = some '#' then
      comment
      return .inr ()
    else return .inl ()

noncomputable def word (position : Position) : Scan Token := do
  let letters ← takeWhile isWordPart []
  return ⟨wordKind letters, String.ofList letters, position⟩

/-- Takes digits, and one point if a digit follows it. The state says whether there was a point. -/
noncomputable def numeral : (state : Bool × List Char) → Scan (List Char) :=
  loop fun (pointed, taken) => do
    if ← atEnd then return .inl taken
    let c ← peek 0
    if c.any isDigit then
      let digit ← advance
      return .inr (pointed, taken ++ [digit])
    else if c = some '.' && !pointed && (← peek 1).any isDigit then
      let point ← advance
      return .inr (true, taken ++ [point])
    else return .inl taken

/-- Takes what stands before the closing quote. -/
noncomputable def quoted : (value : List Char) → Scan (List Char) :=
  loop fun value => do
    if !(← atEnd) && (← peek 0) != some '"' then
      if (← peek 0) = some '\\' then
        let _ ← advance
        if ← atEnd then return .inr value
        let escaped ← advance
        return .inr (value ++ [unescape escaped])
      else
        let c ← advance
        return .inr (value ++ [c])
    else return .inl value

noncomputable def string (position : Position) : Scan Token := do
  let _ ← advance
  let value ← quoted []
  if ← atEnd then throw (.lexical ⟨.unterminatedString, position⟩)
  let _ ← advance
  return ⟨.string, String.ofList value, position⟩

/-- The longest symbol among the texts that end at one of some distances. -/
def longestSymbol (candidate : List Char) (best : Option Symbol) :
    (distances : List Nat) → Scan (Option Symbol)
  | [] => return best
  | distance :: more => do
    match ← peek distance with
    | none => return best
    | some c =>
      let candidate := candidate ++ [c]
      longestSymbol candidate ((Symbol.ofSpelling? candidate).or best) more

def takeMany : Nat → Scan Unit
  | 0 => return ()
  | count + 1 => do
    let _ ← advance
    takeMany count

/-- Takes the longest symbol, if there is one. -/
def symbol (position : Position) : Scan (Option Token) := do
  match ← longestSymbol [] none [0, 1] with
  | none => return none
  | some mark =>
    takeMany mark.spelling.length
    return some ⟨.symbol mark, String.ofList mark.spelling, position⟩

/-- Takes the token that starts with a character. -/
noncomputable def tokenAt (position : Position) (c : Char) : Scan Token := do
  if c = '"' then string position
  else if isDigit c then return ⟨.number, String.ofList (← numeral (false, [])), position⟩
  else if isWordStart c then word position
  else
    match ← symbol position with
    | some found => return found
    | none => throw (.lexical ⟨.unexpectedCharacter c, position⟩)

/-- Takes a gap and a token. -/
noncomputable def token : Scan Token := do
  gap ()
  let position := (← get).place.toPosition
  if ← atEnd then return .endAt position
  match ← peek 0 with
  | none => throw (.read .beforeStart)
  | some c => tokenAt position c

/-- Takes tokens up to the end of the text. -/
noncomputable def tokens : (taken : List Token) → Scan (List Token) :=
  loop fun taken => do
    let next ← token
    if next.kind = .endOfInput then return .inl (taken ++ [next])
    else return .inr (taken ++ [next])

/-! ## How computations end -/

/-- A computation ends with an outcome, and leaves the reader at some place. -/
def Ends {α : Type} (scan : Scan α) (reader : Reader) (outcome : Except Stop α) (finish : Reader) :
    Prop := scan.run.run reader = Part.some (outcome, finish)

variable {α β : Type} {reader middle finish : Reader} {outcome : Except Stop β}
  {c : Char} {text rest : List Char}

theorem ends_pure (a : α) (reader : Reader) : Ends (pure a) reader (.ok a) reader := rfl

theorem ends_throw (stop : Stop) (reader : Reader) :
    Ends (throw stop : Scan α) reader (.error stop) reader := rfl

theorem ends_bind {first : Scan α} {second : α → Scan β} {a : α}
    (begins : Ends first reader (.ok a) middle) (goesOn : Ends (second a) middle outcome finish) :
    Ends (first >>= second) reader outcome finish := by
  unfold Ends at *
  rw [ExceptT.run_bind, StateT.run_bind, begins, Part.bind_eq_bind, Part.bind_some]
  exact goesOn

theorem ends_bind_error {first : Scan α} {second : α → Scan β} {stop : Stop}
    (failed : Ends first reader (.error stop) finish) :
    Ends (first >>= second) reader (.error stop) finish := by
  unfold Ends at *
  rw [ExceptT.run_bind, StateT.run_bind, failed, Part.bind_eq_bind, Part.bind_some]
  rfl

/-- A loop ends with the result of its last turn. -/
theorem loop_ends_of_done {σ : Type} {turn : σ → Scan (β ⊕ σ)} {state : σ} {result : β}
    (done : Ends (turn state) reader (.ok (.inl result)) finish) :
    Ends (loop turn state) reader (.ok result) finish := by
  refine Part.eq_some_iff.mpr (PFun.fix_stop ?_)
  exact (Part.mem_map_iff _).mpr ⟨_, Part.eq_some_iff.mp done, rfl⟩

/-- A loop stops if one of its turns stops. -/
theorem loop_ends_of_error {σ : Type} {turn : σ → Scan (β ⊕ σ)} {state : σ} {stop : Stop}
    (failed : Ends (turn state) reader (.error stop) finish) :
    Ends (loop turn state) reader (.error stop) finish := by
  refine Part.eq_some_iff.mpr (PFun.fix_stop ?_)
  exact (Part.mem_map_iff _).mpr ⟨_, Part.eq_some_iff.mp failed, rfl⟩

/-- A loop goes on from the state that a turn gives. -/
theorem loop_ends_of_turn {σ : Type} {turn : σ → Scan (β ⊕ σ)} {state next : σ}
    (turned : Ends (turn state) reader (.ok (.inr next)) middle)
    (further : Ends (loop turn next) middle outcome finish) :
    Ends (loop turn state) reader outcome finish := by
  -- a turn that gives a next state is one step of the fixed point
  have forward : Sum.inr (next, middle) ∈ turnFrom turn (state, reader) :=
    (Part.mem_map_iff _).mpr ⟨_, Part.eq_some_iff.mp turned, rfl⟩
  show (turnFrom turn).fix (state, reader) = _
  rw [PFun.fix_fwd_eq forward]
  exact further

theorem ends_lift {step : StateT Reader Part α} {a : α}
    (ends : step.run reader = Part.some (a, finish)) :
    Ends (liftM step) reader (.ok a) finish := by
  show (Except.ok <$> step).run reader = _
  rw [StateT.run_map, ends]
  exact Part.map_some _ _

theorem ends_get (reader : Reader) : Ends get reader (.ok reader) reader := ends_lift rfl

theorem ends_set (reader next : Reader) : Ends (set next) reader (.ok ()) next := ends_lift rfl

theorem ends_atEnd (faces : reader.Faces rest) : Ends atEnd reader (.ok rest.isEmpty) reader := by
  rw [← faces.atEnd]
  exact ends_bind (ends_get reader) (ends_pure _ reader)

theorem ends_peek (faces : reader.Faces rest) (distance : Nat) :
    Ends (peek distance) reader (.ok rest[distance]?) reader := by
  rw [← faces.peek?]
  exact ends_bind (ends_get reader) (ends_pure _ reader)

theorem ends_peek_head (faces : reader.Faces (c :: rest)) :
    Ends (peek 0) reader (.ok (some c)) reader := ends_peek faces 0

/-- A reader that faces a character takes it, so it cannot fail for want of one. -/
theorem ends_advance (faces : reader.Faces (c :: rest)) :
    Ends advance reader (.ok c) (reader.skip [c]) := by
  refine ends_bind (ends_get reader) ?_
  rw [faces.next]
  exact ends_bind (ends_set _ _) (ends_pure c _)

/-! ## Gaps -/

/-- At the end of the text, or at a character of another class, nothing is taken. -/
theorem takeWhile_ends_of_outside {part : Char → Bool} (faces : reader.Faces rest)
    (outside : StartsOutside part rest) (taken : List Char) :
    Ends (takeWhile part taken) reader (.ok taken) reader := by
  refine loop_ends_of_done (ends_bind (ends_atEnd faces) ?_)
  cases rest with
  | nil => exact ends_bind (ends_peek faces 0) (ends_pure _ reader)
  | cons c rest =>
    have stops : (some c).any part = false := outside c rest rfl
    refine ends_bind (ends_peek_head faces) ?_
    rw [stops, Bool.and_false]
    exact ends_pure _ reader

/-- The characters of the class are taken, and no others: by induction on them, one turn for each.
-/
theorem takeWhile_ends {part : Char → Bool} (faces : reader.Faces (text ++ rest))
    (inside : ∀ c ∈ text, part c = true) (outside : StartsOutside part rest) (taken : List Char) :
    Ends (takeWhile part taken) reader (.ok (taken ++ text)) (reader.skip text) := by
  induction text generalizing reader taken with
  | nil =>
    rw [List.append_nil]
    exact takeWhile_ends_of_outside faces outside taken
  | cons c text ih =>
    have goesOn : (some c).any part = true := inside c List.mem_cons_self
    have further := ih (faces.skip [c]) (fun d member => inside d (List.mem_cons_of_mem c member))
      (taken ++ [c])
    rw [List.append_assoc, Reader.skip_skip] at further
    refine loop_ends_of_turn ?_ further
    refine ends_bind (ends_atEnd faces) (ends_bind (ends_peek_head faces) ?_)
    rw [goesOn]
    exact ends_bind (ends_advance faces) (ends_pure _ _)

/-- A comment is taken up to the end of its line. -/
theorem comment_ends (faces : reader.Faces (text ++ rest)) (inLine : '\n' ∉ text)
    (ends : StartsOutside (· != '\n') rest) : Ends comment reader (.ok ()) (reader.skip text) := by
  refine ends_bind (takeWhile_ends faces ?_ ends []) (ends_pure () _)
  intro c member
  have other : c ≠ '\n' := fun same => inLine (same ▸ member)
  simpa using other

theorem gap_ends_of_blank (faces : reader.Faces (c :: rest)) (blank : isSpace c = true)
    (further : Ends (gap ()) (reader.skip [c]) (.ok ()) finish) :
    Ends (gap ()) reader (.ok ()) finish := by
  have space : (some c).all isSpace = true := blank
  refine loop_ends_of_turn ?_ further
  refine ends_bind (ends_atEnd faces) (ends_bind (ends_peek_head faces) ?_)
  rw [if_pos space]
  exact ends_bind (ends_advance faces) (ends_pure _ _)

theorem gap_ends_of_comment (faces : reader.Faces ('#' :: text ++ rest)) (inLine : '\n' ∉ text)
    (ends : StartsOutside (· != '\n') rest)
    (further : Ends (gap ()) (reader.skip ('#' :: text)) (.ok ()) finish) :
    Ends (gap ()) reader (.ok ()) finish := by
  have remark : '\n' ∉ '#' :: text := by simp [inLine]
  refine loop_ends_of_turn ?_ further
  refine ends_bind (ends_atEnd faces) (ends_bind (ends_peek_head faces) ?_)
  exact ends_bind (comment_ends faces remark ends) (ends_pure _ _)

theorem gap_ends_of_solid (faces : reader.Faces rest) (solid : StartsOutside isGapStart rest) :
    Ends (gap ()) reader (.ok ()) reader := by
  refine loop_ends_of_done (ends_bind (ends_atEnd faces) ?_)
  cases rest with
  | nil => exact ends_pure _ reader
  | cons c rest =>
    have other := solid c rest rfl
    simp only [isGapStart, Bool.or_eq_false_iff, decide_eq_false_iff_not] at other
    refine ends_bind (ends_peek_head faces) ?_
    simp only [Option.all_some, other.1, Option.some.injEq, other.2, if_false, Bool.false_eq_true]
    exact ends_pure _ reader

/-- A gap is taken as a whole. -/
theorem gap_ends {behind skipped : List Char} (isGap : Gap behind skipped)
    (solid : StartsOutside isGapStart behind) (faces : reader.Faces (skipped ++ behind)) :
    Ends (gap ()) reader (.ok ()) (reader.skip skipped) := by
  -- one turn for a blank, and one for a comment without its line end
  induction isGap generalizing reader with
  | none => exact gap_ends_of_solid faces solid
  | @blank c gap blank _ ih =>
    have space : isSpace c = true := by
      rcases blank with rfl | rfl | rfl | rfl <;> rfl
    refine gap_ends_of_blank faces space ?_
    have further := ih (faces.skip [c])
    rwa [Reader.skip_skip] at further
  | @comment body gap inLine _ ih =>
    -- the comment ends before the line end, which is a blank
    have split : '#' :: (body ++ '\n' :: gap) = '#' :: body ++ '\n' :: gap := rfl
    rw [split, List.append_assoc] at faces
    have lineEnd := faces.skip ('#' :: body)
    have further := ih (lineEnd.skip ['\n'])
    rw [Reader.skip_skip _ ('#' :: body), Reader.skip_skip, List.append_assoc] at further
    refine gap_ends_of_comment faces inLine (by rintro c tail ⟨⟩; rfl) ?_
    refine gap_ends_of_blank lineEnd rfl ?_
    rw [Reader.skip_skip]
    exact further
  | lastComment inLine ended =>
    subst ended
    refine gap_ends_of_comment faces inLine nofun ?_
    exact gap_ends_of_solid (faces.skip ('#' :: _)) nofun

/-! ## Numerals -/

/-- Digits are taken one after the other. -/
theorem numeral_ends_of_digits {digits : List Char} (all : ∀ c ∈ digits, isDigit c = true)
    (pointed : Bool) (taken : List Char) {result : Except Stop (List Char)}
    (faces : reader.Faces (digits ++ rest))
    (further : Ends (numeral (pointed, taken ++ digits)) (reader.skip digits) result finish) :
    Ends (numeral (pointed, taken)) reader result finish := by
  induction digits generalizing reader taken with
  | nil => rwa [List.append_nil] at further
  | cons c digits ih =>
    have digit : (some c).any isDigit = true := all c List.mem_cons_self
    rw [← List.singleton_append, ← List.append_assoc, ← Reader.skip_skip] at further
    have others : ∀ d ∈ digits, isDigit d = true := fun d member =>
      all d (List.mem_cons_of_mem c member)
    refine loop_ends_of_turn ?_ (ih others (taken ++ [c]) (faces.skip [c]) further)
    refine ends_bind (ends_atEnd faces) (ends_bind (ends_peek_head faces) ?_)
    rw [if_pos digit]
    exact ends_bind (ends_advance faces) (ends_pure _ _)

/-- A point is taken if a digit follows it. -/
theorem numeral_ends_of_point (taken : List Char) {result : Except Stop (List Char)}
    (faces : reader.Faces ('.' :: c :: rest)) (digit : isDigit c = true)
    (further : Ends (numeral (true, taken ++ ['.'])) (reader.skip ['.']) result finish) :
    Ends (numeral (false, taken)) reader result finish := by
  have goesOn : (('.' :: c :: rest)[1]?).any isDigit = true := digit
  refine loop_ends_of_turn ?_ further
  refine ends_bind (ends_atEnd faces) (ends_bind (ends_peek_head faces) ?_)
  refine ends_bind (ends_peek faces 1) ?_
  rw [goesOn]
  exact ends_bind (ends_advance faces) (ends_pure _ _)

/-- A numeral ends at a second point, and at a point without a digit behind it. -/
theorem numeral_ends_of_outside (pointed : Bool) (taken : List Char) (faces : reader.Faces rest)
    (outside : StartsOutside isDigit rest)
    (noPoint : pointed = true ∨ ∀ c tail, rest = '.' :: c :: tail → isDigit c = false) :
    Ends (numeral (pointed, taken)) reader (.ok taken) reader := by
  refine loop_ends_of_done (ends_bind (ends_atEnd faces) ?_)
  cases rest with
  | nil => exact ends_pure _ reader
  | cons c rest =>
    have noDigit : (some c).any isDigit = false := outside c rest rfl
    have stops : (some c = some '.' && !pointed && ((c :: rest)[1]?).any isDigit) = false := by
      rcases noPoint with rfl | noPoint
      · simp
      · cases rest with
        | nil => simp
        | cons d rest =>
          by_cases point : c = '.'
          · subst point
            simp [noPoint d rest rfl]
          · simp [point]
    refine ends_bind (ends_peek_head faces) ?_
    rw [noDigit]
    refine ends_bind (ends_peek faces 1) ?_
    rw [stops]
    exact ends_pure _ reader

/-- What is spelled as a number is taken as a whole. -/
theorem numeral_ends {raw behind value : List Char} (spells : Spells raw behind .number value)
    (faces : reader.Faces (raw ++ behind)) :
    Ends (numeral (false, [])) reader (.ok value) (reader.skip raw) := by
  cases spells with
  | whole isDigits outside noPoint =>
    refine numeral_ends_of_digits isDigits.2 false [] faces ?_
    exact numeral_ends_of_outside false _ (faces.skip raw) outside (.inr noPoint)
  -- the digits before the point, the point and the digits behind it, built up from the end
  | @decimal whole fraction _ isWhole isFraction outside =>
    obtain ⟨c, rest, first, digit⟩ := isFraction.starts behind
    rw [List.append_assoc] at faces
    have atPoint := faces.skip whole
    have behindPoint := atPoint.skip ['.']
    have atLast := behindPoint.skip fraction
    have ended := numeral_ends_of_outside true (whole ++ ['.'] ++ fraction) atLast outside
      (.inl rfl)
    have fractionTaken :=
      numeral_ends_of_digits isFraction.2 true (whole ++ ['.']) behindPoint ended
    rw [List.cons_append, first] at atPoint
    have pointTaken := numeral_ends_of_point whole atPoint digit fractionTaken
    have taken := numeral_ends_of_digits isWhole.2 false [] faces pointTaken
    rw [Reader.skip_skip, Reader.skip_skip, List.append_assoc] at taken
    exact taken

/-! ## Strings -/

/-- What stands between two quotes is taken as a whole. -/
theorem quoted_ends {raw value behind : List Char} (isQuoted : Quoted raw value)
    (faces : reader.Faces (raw ++ '"' :: behind)) (taken : List Char) :
    Ends (quoted taken) reader (.ok (taken ++ value)) (reader.skip raw) := by
  induction isQuoted generalizing reader taken with
  | none =>
    rw [List.append_nil]
    refine loop_ends_of_done (ends_bind (ends_atEnd faces) ?_)
    exact ends_bind (ends_peek_head faces) (ends_pure _ reader)
  | @plain c raw value noQuote noEscape _ ih =>
    have goesOn : (some c != some '"') = true := by simpa using noQuote
    have plain : some c ≠ some '\\' := by simpa using noEscape
    have further := ih (faces.skip [c]) (taken ++ [c])
    rw [List.append_assoc, Reader.skip_skip] at further
    refine loop_ends_of_turn ?_ further
    refine ends_bind (ends_atEnd faces) (ends_bind (ends_peek_head faces) ?_)
    rw [goesOn]
    refine ends_bind (ends_peek_head faces) ?_
    rw [if_neg plain]
    exact ends_bind (ends_advance faces) (ends_pure _ _)
  -- a backslash takes the next character with it, even if that is a quote
  | @escaped c d raw value stands _ ih =>
    have atEscaped := faces.skip ['\\']
    have further := ih (atEscaped.skip [c]) (taken ++ [d])
    rw [List.append_assoc, Reader.skip_skip, Reader.skip_skip] at further
    refine loop_ends_of_turn ?_ further
    refine ends_bind (ends_atEnd faces) (ends_bind (ends_peek_head faces) ?_)
    refine ends_bind (ends_peek_head faces) (ends_bind (ends_advance faces) ?_)
    refine ends_bind (ends_atEnd atEscaped) (ends_bind (ends_advance atEscaped) ?_)
    rw [escaped_iff.mp stands, Reader.skip_skip]
    exact ends_pure _ _

/-- A string that does not end is taken to the end of the text. -/
theorem quoted_ends_of_none (never : splitString text = none) (faces : reader.Faces text)
    (taken : List Char) : ∃ value, Ends (quoted taken) reader (.ok value) (reader.skip text) := by
  -- by the cases of the split, of which those that find a quote are excluded
  fun_induction splitString text generalizing reader taken with
  | case1 =>
    refine ⟨taken, loop_ends_of_done (ends_bind (ends_atEnd faces) ?_)⟩
    exact ends_bind (ends_peek faces 0) (ends_pure _ reader)
  | case2 => cases never
  | case3 => cases never
  | case4 c rest none ih =>
    have atEscaped := faces.skip ['\\']
    obtain ⟨value, further⟩ := ih none (atEscaped.skip [c]) (taken ++ [unescape c])
    rw [Reader.skip_skip, Reader.skip_skip] at further
    refine ⟨value, loop_ends_of_turn ?_ further⟩
    refine ends_bind (ends_atEnd faces) (ends_bind (ends_peek_head faces) ?_)
    refine ends_bind (ends_peek_head faces) (ends_bind (ends_advance faces) ?_)
    refine ends_bind (ends_atEnd atEscaped) (ends_bind (ends_advance atEscaped) ?_)
    rw [Reader.skip_skip]
    exact ends_pure _ _
  | case5 => cases never
  | case6 c rest noQuote escape none ih =>
    have goesOn : (some c != some '"') = true := by simpa using noQuote
    have behind := faces.skip [c]
    -- a backslash at the very end stands for nothing
    obtain ⟨value, further⟩ := ih none behind (if c = '\\' then taken else taken ++ [c])
    rw [Reader.skip_skip] at further
    refine ⟨value, loop_ends_of_turn ?_ further⟩
    refine ends_bind (ends_atEnd faces) (ends_bind (ends_peek_head faces) ?_)
    rw [goesOn]
    refine ends_bind (ends_peek_head faces) ?_
    by_cases backslash : c = '\\'
    · cases rest with
      | nil =>
        rw [if_pos backslash, if_pos (congrArg some backslash)]
        exact ends_bind (ends_advance faces) (ends_bind (ends_atEnd behind) (ends_pure _ _))
      | cons d rest => exact absurd backslash (escape d rest · rfl)
    · rw [if_neg backslash, if_neg (by simpa using backslash)]
      exact ends_bind (ends_advance faces) (ends_pure _ _)

theorem string_ends {raw value behind : List Char} (isQuoted : Quoted raw value)
    (faces : reader.Faces ('"' :: (raw ++ ['"']) ++ behind)) (position : Position) :
    Ends (string position) reader (.ok ⟨.string, String.ofList value, position⟩)
      (reader.skip ('"' :: (raw ++ ['"']))) := by
  rw [List.cons_append, List.append_assoc] at faces
  have opened := faces.skip ['"']
  have closing := opened.skip raw
  refine ends_bind (ends_advance faces) (ends_bind (quoted_ends isQuoted opened []) ?_)
  refine ends_bind (ends_atEnd closing) (ends_bind (ends_advance closing) ?_)
  rw [Reader.skip_skip, Reader.skip_skip]
  exact ends_pure _ _

/-- A string that does not end stops the lexer at the end of the text, with the position of its
opening quote. -/
theorem string_ends_of_none (never : splitString rest = none) (faces : reader.Faces ('"' :: rest))
    (position : Position) :
    Ends (string position) reader (.error (.lexical ⟨.unterminatedString, position⟩))
      (reader.skip ('"' :: rest)) := by
  have opened := faces.skip ['"']
  obtain ⟨value, taken⟩ := quoted_ends_of_none never opened []
  have atLast := opened.skip_all
  refine ends_bind (ends_advance faces) (ends_bind taken ?_)
  refine ends_bind (ends_atEnd atLast) ?_
  rw [Reader.skip_skip]
  exact ends_bind_error (ends_throw _ _)

/-! ## Symbols -/

/-- No symbol is longer than two characters, so it is enough to look so far ahead. -/
theorem longestSymbol_ends (faces : reader.Faces (c :: rest)) :
    Ends (longestSymbol [] none [0, 1]) reader (.ok (symbol? c rest)) reader := by
  refine ends_bind (ends_peek_head faces) (ends_bind (ends_peek faces 1) ?_)
  cases rest with
  | nil =>
    rw [show symbol? c [] = (Symbol.ofSpelling? [c]).or none from (Option.or_none).symm]
    exact ends_pure _ reader
  | cons d rest =>
    rw [show symbol? c (d :: rest) =
      (Symbol.ofSpelling? [c, d]).or ((Symbol.ofSpelling? [c]).or none) by
        rw [Option.or_none]; rfl]
    exact ends_pure _ reader

theorem takeMany_ends (faces : reader.Faces (text ++ rest)) :
    Ends (takeMany text.length) reader (.ok ()) (reader.skip text) := by
  induction text generalizing reader with
  | nil => exact ends_pure () reader
  | cons c text ih =>
    have further := ih (faces.skip [c])
    rw [Reader.skip_skip] at further
    exact ends_bind (ends_advance faces) further

theorem symbol_ends {mark : Symbol} (faces : reader.Faces (c :: rest))
    (found : symbol? c rest = some mark) (position : Position) :
    Ends (symbol position) reader (.ok (some ⟨.symbol mark, String.ofList mark.spelling, position⟩))
      (reader.skip mark.spelling) := by
  have longest := longestSymbol_ends faces
  rw [found] at longest
  rw [← symbol?_append found] at faces
  exact ends_bind longest (ends_bind (takeMany_ends faces) (ends_pure _ _))

theorem symbol_ends_of_none (faces : reader.Faces (c :: rest)) (missing : symbol? c rest = none)
    (position : Position) : Ends (symbol position) reader (.ok none) reader := by
  have longest := longestSymbol_ends faces
  rw [missing] at longest
  exact ends_bind longest (ends_pure _ _)

/-! ## Tokens -/

/-- The lexical faults are the only ones that stop the reading of a token. -/
def stopping {α : Type} (result : Except LexFault α) : Except Stop α := result.mapError .lexical

/-- The token that a text starts with is taken as a whole. -/
theorem tokenAt_ends {found : Lexeme} (taken : lexeme c rest = .ok found)
    (faces : reader.Faces (c :: rest)) (position : Position) :
    Ends (tokenAt position c) reader (.ok ⟨found.kind, String.ofList found.value, position⟩)
      (reader.skip found.raw) := by
  unfold lexeme at taken
  unfold tokenAt
  split at taken
  · rename_i quote
    rw [if_pos quote]
    split at taken
    · rename_i value raw after inner
      cases taken
      obtain ⟨body, rfl, isQuoted⟩ := quoted_of_splitString inner
      rw [← splitString_append inner, quote] at faces
      rw [quote]
      exact string_ends isQuoted faces position
    · cases taken
  · rename_i quote
    rw [if_neg quote]
    split at taken
    · rename_i digit
      cases taken
      rw [if_pos digit]
      rw [← splitNumeral_append (c :: rest)] at faces
      exact ends_bind (numeral_ends (spells_splitNumeral digit rest) faces) (ends_pure _ _)
    · rename_i digit
      rw [if_neg digit]
      split at taken
      · rename_i start
        cases taken
        rw [if_pos start]
        have part : isWordPart c = true := by simp [isWordPart, start]
        -- the first character starts a word, and so may stand inside one
        have split : c :: rest = c :: rest.takeWhile isWordPart ++ rest.dropWhile isWordPart := by
          rw [List.cons_append, List.takeWhile_append_dropWhile]
        rw [split] at faces
        refine ends_bind (takeWhile_ends faces ?_ (startsOutside_dropWhile _ _) []) (ends_pure _ _)
        intro d member
        rcases List.mem_cons.mp member with rfl | later
        · exact part
        · exact List.mem_takeWhile_imp later
      · rename_i start
        rw [if_neg start]
        split at taken
        · rename_i mark inner
          cases taken
          exact ends_bind (symbol_ends faces inner position) (ends_pure _ _)
        · cases taken

theorem tokenAt_ends_of_unterminated (failed : lexeme c rest = .error .unterminatedString)
    (faces : reader.Faces (c :: rest)) (position : Position) :
    Ends (tokenAt position c) reader (.error (.lexical ⟨.unterminatedString, position⟩))
      (reader.skip (c :: rest)) := by
  obtain ⟨rfl, never⟩ := lexeme_unterminated failed
  exact string_ends_of_none never faces position

theorem tokenAt_ends_of_unexpected {d : Char}
    (failed : lexeme c rest = .error (.unexpectedCharacter d)) (faces : reader.Faces (c :: rest))
    (position : Position) :
    Ends (tokenAt position c) reader (.error (.lexical ⟨.unexpectedCharacter d, position⟩))
      reader := by
  obtain ⟨rfl, quote, digit, start, missing⟩ := lexeme_unexpected failed
  unfold tokenAt
  rw [if_neg quote, if_neg (Bool.eq_false_iff.mp digit), if_neg (Bool.eq_false_iff.mp start)]
  exact ends_bind (symbol_ends_of_none faces missing position) (ends_throw _ _)

/-- Reading a token ends, takes no character that is not there, and does what `Reader.token`
does. -/
theorem token_ends (faces : reader.Faces text) :
    Ends token reader (stopping reader.token.1) reader.token.2 := by
  unfold Reader.token nextToken
  rw [faces.rest_eq]
  cases same : splitGap false text with
  | mk skipped after =>
    obtain ⟨rfl, isGap, solid⟩ := splitGap_eq_iff.mp same
    have atToken := faces.skip skipped
    refine ends_bind (gap_ends isGap solid faces) (ends_bind (ends_get _) ?_)
    refine ends_bind (ends_atEnd atToken) ?_
    cases after with
    | nil => exact ends_pure _ _
    | cons c rest =>
      refine ends_bind (ends_peek_head atToken) ?_
      cases taken : lexeme c rest with
      | ok found =>
        simp only [taken]
        exact tokenAt_ends taken atToken _
      | error cause =>
        simp only [taken]
        cases cause with
        | unterminatedString => exact tokenAt_ends_of_unterminated taken atToken _
        | unexpectedCharacter d => exact tokenAt_ends_of_unexpected taken atToken _

theorem token_ends_of_result (faces : reader.Faces text) {result : Except LexFault Token}
    (read : (nextToken reader.place text).result = result) :
    Ends token reader (stopping result) reader.token.2 := by
  have next := token_ends faces
  rwa [show reader.token.1 = result by rw [Reader.token_eq faces, read]] at next

/-- Reading all tokens ends, takes no character that is not there, and gives what `tokensFrom`
gives. -/
theorem tokens_ends (faces : reader.Faces text) (taken : List Token) :
    ∃ finish, Ends (tokens taken) reader
      (stopping ((tokensFrom reader.place text).map (taken ++ ·))) finish := by
  generalize start : reader.place = place
  -- one turn for each token; the place is that of the reader, which moves from turn to turn
  fun_induction tokensFrom place text generalizing reader taken with
  | case1 place text fault read =>
    subst start
    refine ⟨reader.token.2, loop_ends_of_error ?_⟩
    exact ends_bind_error (token_ends_of_result faces read)
  | case2 place text token read last =>
    subst start
    refine ⟨reader.token.2, loop_ends_of_done ?_⟩
    refine ends_bind (token_ends_of_result faces read) ?_
    rw [if_pos last]
    exact ends_pure _ _
  | case3 place text token read more rest found ih =>
    subst start
    obtain ⟨finish, further⟩ := ih (Reader.faces_token faces) (taken ++ [token])
      (by rw [Reader.token_eq faces])
    rw [found, Except.map, List.append_assoc] at further
    refine ⟨finish, loop_ends_of_turn ?_ further⟩
    refine ends_bind (token_ends_of_result faces read) ?_
    rw [if_neg more]
    exact ends_pure _ _
  | case4 place text token read more fault found ih =>
    subst start
    obtain ⟨finish, further⟩ := ih (Reader.faces_token faces) (taken ++ [token])
      (by rw [Reader.token_eq faces])
    rw [found] at further
    refine ⟨finish, loop_ends_of_turn ?_ further⟩
    refine ends_bind (token_ends_of_result faces read) ?_
    rw [if_neg more]
    exact ends_pure _ _

end Scan

end Script
