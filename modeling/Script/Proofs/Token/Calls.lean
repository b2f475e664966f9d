import Mathlib
import Script.Proofs.Token.Scanning

/-!
# Reading token after token

A lexer is called again and again, also after faults. Each call goes on where the one before has
left the text, and what it does is said by `LexStep`, in terms of the text and of how much of it has
been read. So the place of the reader is always that of the text read so far, and two states are
never left: before a character that starts no token, and at the end of the text.

* `lexer_stays_consistent`: all this after any number of calls, of a lexer that takes one character
  at a time.
-/

namespace Script

open Lexer

/-! ## Lines and columns -/

/-- The position behind a text: the line is counted by the line ends, and the column by the
characters since the last of them. -/
def Position.behind (text : List Char) : Position :=
  ⟨1 + text.count '\n', 1 + (text.reverse.takeWhile (· != '\n')).length⟩

/-- Reading character by character counts lines and columns. -/
theorem start_after (text : List Char) :
    Place.start.after text = ⟨Position.behind text, text.length⟩ := by
  induction text using List.reverseRecOn with
  | nil => rfl
  | append_singleton text c ih =>
    rw [Place.after_append, ih]
    show Place.next _ c = _
    unfold Place.next Position.behind
    split
    · rename_i lineEnd
      subst lineEnd
      simp [List.count_append, Int.add_assoc]
    · rename_i other
      simp [List.count_append, other, Int.add_assoc]

/-! ## One call -/

/-- `LexStep text before result after`: when so many characters of a text have been read, one call
can give this result, and has read so many then. A token stands behind a gap, and it and each fault
have the position of the first character behind that gap. -/
inductive LexStep (text : List Char) : (before : Nat) → Except LexFault Token → (after : Nat) → Prop
  | token {read gap raw rest kind value} : text = read ++ gap ++ (raw ++ rest) →
      Gap (raw ++ rest) gap → Spells raw rest kind value →
      LexStep text read.length (.ok ⟨kind, String.ofList value, .behind (read ++ gap)⟩)
        (read ++ gap ++ raw).length
  | ended {read gap} : text = read ++ gap → Gap [] gap →
      LexStep text read.length (.ok (.endAt (.behind text))) text.length
  | unterminated {read gap rest} : text = read ++ gap ++ '"' :: rest → Gap ('"' :: rest) gap →
      (∀ raw value behind, Quoted raw value → raw ++ '"' :: behind ≠ rest) →
      LexStep text read.length (.error ⟨.unterminatedString, .behind (read ++ gap)⟩) text.length
  | unexpected {read gap c rest} : text = read ++ gap ++ c :: rest → Gap (c :: rest) gap →
      isGapStart c = false → c ≠ '"' →
      (∀ raw behind kind value, Spells raw behind kind value → raw ++ behind ≠ c :: rest) →
      LexStep text read.length (.error ⟨.unexpectedCharacter c, .behind (read ++ gap)⟩)
        (read ++ gap).length

namespace LexStep

variable {text : List Char} {before after : Nat} {result : Except LexFault Token}

/-- Reading never goes back, nor beyond the end of the text. -/
theorem bounds (step : LexStep text before result after) :
    before ≤ after ∧ after ≤ text.length := by
  cases step with
  | token whole => simp [whole]
  | ended whole => simp [whole]
  | unterminated whole => simp [whole]
  | unexpected whole => simp [whole]

/-- The character that starts no token is the next one to be read, and the fault has its
position. -/
theorem unexpected_inv {c : Char} {position : Position}
    (step : LexStep text before (.error ⟨.unexpectedCharacter c, position⟩) after) :
    ∃ read rest, text = read ++ c :: rest ∧ read.length = after ∧ position = .behind read ∧
      isGapStart c = false ∧ c ≠ '"' ∧
      ∀ raw behind kind value, Spells raw behind kind value → raw ++ behind ≠ c :: rest := by
  cases step with
  | unexpected whole isGap solid noQuote none =>
    exact ⟨_, _, whole, rfl, rfl, solid, noQuote, none⟩

/-- A string that does not end takes the whole text. -/
theorem unterminated_inv {position : Position}
    (step : LexStep text before (.error ⟨.unterminatedString, position⟩) after) :
    after = text.length := by
  cases step with
  | unterminated => rfl

/-- There is one end of input, and with it the whole text has been read. -/
theorem ended_inv {token : Token} (step : LexStep text before (.ok token) after)
    (last : token.kind = .endOfInput) :
    token = .endAt (.behind text) ∧ after = text.length := by
  cases step with
  | token whole isGap spells =>
    cases last
    cases spells
  | ended => exact ⟨rfl, rfl⟩

end LexStep

namespace Reader

/-- The reader behind a stretch of text, before the rest. -/
def between (read rest : List Char) : Reader := ⟨read ++ rest, Place.start.after read⟩

variable {read rest : List Char}

theorem faces_between (read rest : List Char) : (between read rest).Faces rest := by
  refine ⟨read, rfl, ?_⟩
  show (Place.start.after read).offset = _
  rw [start_after]

theorem skip_between (read text rest : List Char) :
    (between read (text ++ rest)).skip text = between (read ++ text) rest := by
  unfold between skip
  rw [Place.after_append, List.append_assoc]

theorem position_between (read rest gap : List Char) :
    ((between read rest).place.after gap).toPosition = .behind (read ++ gap) := by
  show ((Place.start.after read).after gap).toPosition = _
  rw [← Place.after_append, start_after]

/-- A call goes on in the text, and does what `LexStep` says. -/
theorem token_between (read rest : List Char) : ∃ more left, rest = more ++ left ∧
    (between read rest).token.2 = between (read ++ more) left ∧
    LexStep (read ++ rest) read.length (between read rest).token.1 (read ++ more).length := by
  have call := reads_nextToken (between read rest).place rest
  rw [token_eq (faces_between read rest)]
  generalize nextToken (between read rest).place rest = step at call
  cases call with
  | @token gap raw left kind value isGap spells =>
    have stands := skip_between read (gap ++ raw) left
    rw [← skip_skip, List.append_assoc] at stands
    rw [position_between]
    refine ⟨gap ++ raw, left, (List.append_assoc ..).symm, stands, ?_⟩
    rw [← List.append_assoc, ← List.append_assoc read gap]
    exact .token rfl isGap spells
  | ended isGap =>
    have stands := skip_between read rest []
    rw [List.append_nil] at stands
    rw [position_between]
    exact ⟨rest, [], (List.append_nil _).symm, stands, .ended rfl isGap⟩
  | @unterminated gap left isGap never =>
    have stands := skip_between read (gap ++ '"' :: left) []
    rw [← skip_skip, List.append_nil] at stands
    rw [position_between]
    refine ⟨gap ++ '"' :: left, [], (List.append_nil _).symm, stands, ?_⟩
    rw [← List.append_assoc]
    exact .unterminated rfl isGap never
  | @unexpected gap c left isGap solid noQuote none =>
    rw [position_between]
    refine ⟨gap, c :: left, rfl, skip_between read gap (c :: left), ?_⟩
    rw [← List.append_assoc]
    exact .unexpected rfl isGap solid noQuote none

/-- At the end of the text, a call gives the end of input and stays there. -/
theorem token_at_end (read : List Char) :
    (between read []).token = (.ok (.endAt (.behind read)), between read []) := by
  have position := position_between read [] []
  rw [List.append_nil] at position
  rw [token_eq (faces_between read []), ← position]
  rfl

/-- Before a character that starts no token, a call is a fault and stays there. -/
theorem token_at_unexpected {c : Char} (read rest : List Char) (solid : isGapStart c = false)
    (noQuote : c ≠ '"')
    (none : ∀ raw behind kind value, Spells raw behind kind value → raw ++ behind ≠ c :: rest) :
    (between read (c :: rest)).token =
      (.error ⟨.unexpectedCharacter c, .behind read⟩, between read (c :: rest)) := by
  have position := position_between read (c :: rest) []
  rw [List.append_nil] at position
  rw [token_eq (faces_between read (c :: rest)), ← position]
  unfold nextToken
  rw [splitGap_cons_of_not_start solid]
  cases taken : lexeme c rest with
  | ok found =>
    obtain ⟨whole, spells⟩ := lexeme_eq_ok_iff.mp taken
    exact absurd whole (none _ _ _ _ spells)
  | error cause =>
    cases cause with
    | unterminatedString => exact absurd (lexeme_unterminated taken).1 noQuote
    | unexpectedCharacter d =>
      obtain ⟨rfl, _⟩ := lexeme_unexpected taken
      simp only [taken]
      rfl

/-! ## Call after call -/

/-- The reader after some calls. -/
def afterCalls (reader : Reader) : Nat → Reader
  | 0 => reader
  | calls + 1 => (reader.afterCalls calls).token.2

/-- What a call gives, when some calls have been made before. -/
def answer (reader : Reader) (earlier : Nat) : Except LexFault Token :=
  (reader.afterCalls earlier).token.1

/-- How many characters have been read after some calls. -/
def readCount (reader : Reader) (calls : Nat) : Nat := (reader.afterCalls calls).place.offset.toNat

theorem afterCalls_succ (reader : Reader) (calls : Nat) :
    reader.afterCalls (calls + 1) = reader.token.2.afterCalls calls := by
  induction calls with
  | zero => rfl
  | succ calls ih =>
    show (reader.afterCalls (calls + 1)).token.2 = _
    rw [ih]
    rfl

/-- A reader that a call does not move stays where it is. -/
theorem afterCalls_of_fixed {reader : Reader} {calls later : Nat}
    (fixed : (reader.afterCalls calls).token.2 = reader.afterCalls calls) (order : calls ≤ later) :
    reader.afterCalls later = reader.afterCalls calls := by
  induction later, order using Nat.le_induction with
  | base => rfl
  | succ later _ ih =>
    show (reader.afterCalls later).token.2 = _
    rw [ih, fixed]

/-- After any number of calls, the reader stands inside the text. -/
theorem exists_between (source : String) (calls : Nat) : ∃ read rest,
    read ++ rest = source.toList ∧ (ofString source).afterCalls calls = between read rest := by
  induction calls with
  | zero => exact ⟨[], source.toList, rfl, rfl⟩
  | succ calls ih =>
    obtain ⟨read, rest, whole, stands⟩ := ih
    obtain ⟨more, left, split, goesOn, _⟩ := token_between read rest
    refine ⟨read ++ more, left, ?_, ?_⟩
    · rw [List.append_assoc, ← split, whole]
    · show ((ofString source).afterCalls calls).token.2 = _
      rw [stands, goesOn]

section Source

variable {source : String} {calls : Nat} {read rest : List Char}

theorem offset_between (read rest : List Char) :
    (between read rest).place.offset.toNat = read.length := by
  show (Place.start.after read).offset.toNat = _
  rw [start_after]
  exact Int.toNat_natCast _

theorem readCount_of_between (stands : (ofString source).afterCalls calls = between read rest) :
    (ofString source).readCount calls = read.length := by
  unfold readCount
  rw [stands, offset_between]

/-- The reader has the line and the column behind the text that has been read. -/
theorem afterCalls_eq (source : String) (calls : Nat) : (ofString source).afterCalls calls =
    ⟨source.toList, ⟨.behind (source.toList.take ((ofString source).readCount calls)),
      (ofString source).readCount calls⟩⟩ := by
  obtain ⟨read, rest, whole, stands⟩ := exists_between source calls
  rw [readCount_of_between stands, stands, ← whole, List.take_left]
  unfold Reader.between
  rw [start_after]

/-- How many characters have been read says where the reader stands. -/
theorem between_of_readCount (whole : source.toList = read ++ rest)
    (count : (ofString source).readCount calls = read.length) :
    (ofString source).afterCalls calls = between read rest := by
  obtain ⟨first, second, split, stands⟩ := exists_between source calls
  rw [readCount_of_between stands] at count
  obtain ⟨rfl, rfl⟩ := List.append_inj (split.trans whole) count
  exact stands

/-- Every call does what `LexStep` says. -/
theorem step_answer (source : String) (calls : Nat) : LexStep source.toList
    ((ofString source).readCount calls) ((ofString source).answer calls)
    ((ofString source).readCount (calls + 1)) := by
  obtain ⟨read, rest, whole, stands⟩ := exists_between source calls
  obtain ⟨more, left, split, goesOn, call⟩ := token_between read rest
  have next : (ofString source).afterCalls (calls + 1) = between (read ++ more) left := by
    show ((ofString source).afterCalls calls).token.2 = _
    rw [stands, goesOn]
  unfold answer
  rw [readCount_of_between stands, readCount_of_between next, stands, ← whole]
  exact call

/-- Where a character starts no token, the reader stays and every later call is the same fault. -/
theorem answer_of_unexpected {c : Char} {position : Position}
    (failed : (ofString source).answer calls = .error ⟨.unexpectedCharacter c, position⟩) :
    source.toList[(ofString source).readCount (calls + 1)]? = some c ∧
    ∀ later, calls < later → (ofString source).answer later = (ofString source).answer calls ∧
      (ofString source).readCount later = (ofString source).readCount (calls + 1) := by
  have step := step_answer source calls
  rw [failed] at step ⊢
  obtain ⟨read, rest, whole, count, rfl, solid, noQuote, none⟩ := step.unexpected_inv
  have stands := between_of_readCount whole count.symm
  have again := token_at_unexpected read rest solid noQuote none
  refine ⟨by rw [whole, ← count]; simp, fun later order => ?_⟩
  have stays : (ofString source).afterCalls later = (ofString source).afterCalls (calls + 1) :=
    afterCalls_of_fixed (by rw [stands, again]) order
  unfold answer readCount
  rw [stays, stands, again]
  exact ⟨rfl, rfl⟩

/-- Once the whole text has been read, every call gives the same end of input. -/
theorem answer_of_all_read (all : (ofString source).readCount calls = source.toList.length)
    {later : Nat} (order : calls ≤ later) :
    (ofString source).answer later = .ok (.endAt (.behind source.toList)) ∧
      (ofString source).readCount later = source.toList.length := by
  have stands := between_of_readCount (List.append_nil source.toList).symm all
  have again := token_at_end source.toList
  have stays := afterCalls_of_fixed (by rw [stands, again]) order
  unfold answer readCount
  rw [stays, stands, again]
  exact ⟨rfl, offset_between _ _⟩

end Source

/-! ## All tokens -/

theorem answer_succ (reader : Reader) (earlier : Nat) :
    reader.answer (earlier + 1) = reader.token.2.answer earlier := by
  unfold answer
  rw [afterCalls_succ]

theorem answer_zero {reader : Reader} {text : List Char} (faces : reader.Faces text) :
    reader.answer 0 = (nextToken reader.place text).result := by
  show reader.token.1 = _
  rw [token_eq faces]

/-- The tokens of a text are what the calls give. -/
theorem answers_of_tokensFrom {reader : Reader} {text : List Char} (faces : reader.Faces text)
    {tokens : List Token} (split : tokensFrom reader.place text = .ok tokens) :
    tokens.map .ok = (List.range tokens.length).map reader.answer := by
  generalize start : reader.place = place at split
  fun_induction tokensFrom place text generalizing reader tokens with
  | case1 => cases split
  | case2 place text token read last =>
    subst start
    cases split
    rw [← answer_zero faces] at read
    simp [List.range_succ, read]
  | case3 place text token read more rest found ih =>
    subst start
    cases split
    rw [← answer_zero faces] at read
    have others := ih (faces_token faces) (by rw [token_eq faces]) found
    rw [List.map_cons, List.length_cons, List.range_succ_eq_map, List.map_cons, List.map_map, read,
      others]
    congr 2
    funext earlier
    exact (answer_succ reader earlier).symm
  | case4 => cases split

/-- The tokens of a text end with the one end of input. -/
theorem ended_of_tokenize {source : String} {tokens : List Token}
    (split : tokenize source = .ok tokens) :
    ∃ front, tokens = front ++ [.endAt (.behind source.toList)] ∧
      ∀ token ∈ front, token.kind ≠ .endOfInput := by
  obtain ⟨front, final, rfl, last, others⟩ := exists_ended_of_tokensFrom split
  have given := answers_of_tokensFrom (faces_ofString source) split
  have lastGiven : (ofString source).answer front.length = .ok final := by
    have atLast := congrArg (·[front.length]?) given
    simpa using atLast.symm
  have step := step_answer source front.length
  rw [lastGiven] at step
  obtain ⟨rfl, _⟩ := step.ended_inv last
  exact ⟨front, rfl, others⟩

/-- The fault of a text is that of the first call that gives one, and no earlier call comes to the
end of the text. -/
theorem answer_of_tokensFrom {reader : Reader} {text : List Char} (faces : reader.Faces text)
    {fault : LexFault} (failed : tokensFrom reader.place text = .error fault) :
    ∃ call, reader.answer call = .error fault ∧
      ∀ earlier < call, ∃ token, reader.answer earlier = .ok token ∧ token.kind ≠ .endOfInput := by
  generalize start : reader.place = place at failed
  fun_induction tokensFrom place text generalizing reader with
  | case1 place text other read =>
    subst start
    cases failed
    rw [← answer_zero faces] at read
    exact ⟨0, read, fun earlier less => absurd less (Nat.not_lt_zero earlier)⟩
  | case2 => cases failed
  | case3 => cases failed
  | case4 place text token read more other found ih =>
    subst start
    cases failed
    rw [← answer_zero faces] at read
    obtain ⟨call, fails, earlier⟩ := ih (faces_token faces) (by rw [token_eq faces]) found
    refine ⟨call + 1, (answer_succ reader call).trans fails, fun first order => ?_⟩
    cases first with
    | zero => exact ⟨token, read, more⟩
    | succ first =>
      rw [answer_succ]
      exact earlier first (Nat.lt_of_succ_lt_succ order)

end Reader

/-! ## Calls of a lexer that takes single characters -/

namespace Scan

/-- A call of which a lexical fault is a result. No other fault is. -/
noncomputable def attempt : Scan (Except LexFault Token) :=
  tryCatch (do return .ok (← token)) fun
    | .lexical fault => return .error fault
    | .read fault => throw (.read fault)

/-- Some calls, one after the other. -/
noncomputable def attempts : Nat → Scan (List (Except LexFault Token))
  | 0 => return []
  | calls + 1 => do
    let earlier ← attempts calls
    let last ← attempt
    return earlier ++ [last]

theorem ends_tryCatch {α : Type} {reader finish : Reader} {scan : Scan α} {a : α}
    (handle : Stop → Scan α) (ends : Ends scan reader (.ok a) finish) :
    Ends (tryCatch scan handle) reader (.ok a) finish := by
  show (ExceptT.tryCatch scan handle).run.run reader = _
  unfold ExceptT.tryCatch
  rw [ExceptT.run_mk, StateT.run_bind, show StateT.run scan reader = _ from ends,
    Part.bind_eq_bind, Part.bind_some]
  rfl

theorem ends_tryCatch_error {α : Type} {reader middle finish : Reader} {scan : Scan α}
    {handle : Stop → Scan α} {stop : Stop} {outcome : Except Stop α}
    (failed : Ends scan reader (.error stop) middle)
    (handled : Ends (handle stop) middle outcome finish) :
    Ends (tryCatch scan handle) reader outcome finish := by
  show (ExceptT.tryCatch scan handle).run.run reader = _
  unfold ExceptT.tryCatch
  rw [ExceptT.run_mk, StateT.run_bind, show StateT.run scan reader = _ from failed,
    Part.bind_eq_bind, Part.bind_some]
  exact handled

/-- A call ends, takes no character that is not there, and gives what `Reader.token` gives. -/
theorem attempt_ends {reader : Reader} {text : List Char} (faces : reader.Faces text) :
    Ends attempt reader (.ok reader.token.1) reader.token.2 := by
  have ends := token_ends faces
  unfold attempt
  cases result : reader.token.1 with
  | ok token =>
    rw [result] at ends
    exact ends_tryCatch _ (ends_bind ends (ends_pure _ _))
  | error fault =>
    rw [result] at ends
    exact ends_tryCatch_error (ends_bind_error ends) (ends_pure _ _)

theorem attempts_ends (source : String) (calls : Nat) :
    Ends (attempts calls) (.ofString source)
      (.ok ((List.range calls).map (Reader.ofString source).answer))
      ((Reader.ofString source).afterCalls calls) := by
  induction calls with
  | zero => exact ends_pure [] _
  | succ calls ih =>
    obtain ⟨read, rest, _, stands⟩ := Reader.exists_between source calls
    have faces := Reader.faces_between read rest
    rw [← stands] at faces
    rw [List.range_succ, List.map_append]
    exact ends_bind ih (ends_bind (attempt_ends faces) (ends_pure _ _))

end Scan

/-! ## Any number of calls -/

/-- What is known of a lexer over a text that is called again and again, also after faults. -/
structure LexesConsistently (source : String) : Prop where
  /-- Every call ends, and none tries to take a character that is not there. -/
  ends : ∀ calls, Scan.Ends (Scan.attempts calls) (.ofString source)
    (.ok ((List.range calls).map (Reader.ofString source).answer))
    ((Reader.ofString source).afterCalls calls)
  /-- The line and the column are those behind the text that has been read. -/
  stands : ∀ calls, (Reader.ofString source).afterCalls calls =
    ⟨source.toList, ⟨.behind (source.toList.take ((Reader.ofString source).readCount calls)),
      (Reader.ofString source).readCount calls⟩⟩
  /-- Reading never goes back, nor beyond the end of the text. -/
  onward : ∀ calls, (Reader.ofString source).readCount calls ≤ source.length ∧
    (Reader.ofString source).readCount calls ≤ (Reader.ofString source).readCount (calls + 1)
  /-- Every result and its position are those of the text behind the next gap. -/
  answers : ∀ calls, LexStep source.toList ((Reader.ofString source).readCount calls)
    ((Reader.ofString source).answer calls) ((Reader.ofString source).readCount (calls + 1))
  /-- Where a character starts no token, the reader stays before it. -/
  unexpected : ∀ calls c position,
    (Reader.ofString source).answer calls = .error ⟨.unexpectedCharacter c, position⟩ →
    source.toList[(Reader.ofString source).readCount (calls + 1)]? = some c ∧
    ∀ later, calls < later →
      (Reader.ofString source).answer later = (Reader.ofString source).answer calls ∧
      (Reader.ofString source).readCount later = (Reader.ofString source).readCount (calls + 1)
  /-- A string that does not end leads to the end of the text. -/
  unterminated : ∀ calls position,
    (Reader.ofString source).answer calls = .error ⟨.unterminatedString, position⟩ →
    (Reader.ofString source).readCount (calls + 1) = source.length ∧
    ∀ later, calls < later →
      (Reader.ofString source).answer later = .ok (.endAt (.behind source.toList)) ∧
      (Reader.ofString source).readCount later = source.length
  /-- At the end of the text, all calls give the same end of input. -/
  ended : ∀ calls token, (Reader.ofString source).answer calls = .ok token →
    token.kind = .endOfInput → token = .endAt (.behind source.toList) ∧
    (Reader.ofString source).readCount (calls + 1) = source.length ∧
    ∀ later, calls < later → (Reader.ofString source).answer later = .ok token ∧
      (Reader.ofString source).readCount later = source.length
  /-- Reading all tokens ends, and does not try to take a character that is not there. -/
  tokenizes : ∃ finish,
    Scan.Ends (Scan.tokens []) (.ofString source) (Scan.stopping (tokenize source)) finish
  /-- The list of all tokens has one end of input, the last, and is what the calls give. -/
  listed : ∀ tokens, tokenize source = .ok tokens →
    (∃ front, tokens = front ++ [.endAt (.behind source.toList)] ∧
      ∀ token ∈ front, token.kind ≠ .endOfInput) ∧
    tokens.map .ok = (List.range tokens.length).map (Reader.ofString source).answer
  /-- If there is no such list, it is for the first fault that a call gives. -/
  refused : ∀ fault, tokenize source = .error fault →
    ∃ call, (Reader.ofString source).answer call = .error fault ∧
      ∀ earlier < call, ∃ token, (Reader.ofString source).answer earlier = .ok token ∧
        token.kind ≠ .endOfInput

/-- A lexer stays in a consistent state over any number of calls, faults included. -/
theorem lexer_stays_consistent (source : String) : LexesConsistently source where
  ends := Scan.attempts_ends source
  stands := Reader.afterCalls_eq source
  onward calls := by
    obtain ⟨onward, inside⟩ := (Reader.step_answer source calls).bounds
    rw [String.length_toList] at inside
    exact ⟨onward.trans inside, onward⟩
  answers := Reader.step_answer source
  unexpected calls c position failed := Reader.answer_of_unexpected failed
  unterminated calls position failed := by
    have step := Reader.step_answer source calls
    rw [failed] at step
    have all := step.unterminated_inv
    rw [← String.length_toList]
    exact ⟨all, fun later order => Reader.answer_of_all_read all order⟩
  ended calls token given last := by
    have step := Reader.step_answer source calls
    rw [given] at step
    obtain ⟨rfl, all⟩ := step.ended_inv last
    rw [← String.length_toList]
    exact ⟨rfl, all, fun later order => Reader.answer_of_all_read all order⟩
  tokenizes := by
    obtain ⟨finish, ends⟩ := Scan.tokens_ends (Reader.faces_ofString source) []
    have same : (tokensFrom .start source.toList).map ([] ++ ·) = tokenize source := by
      unfold tokenize
      cases tokensFrom .start source.toList <;> rfl
    exact ⟨finish, same ▸ ends⟩
  listed tokens split := ⟨Reader.ended_of_tokenize split,
    Reader.answers_of_tokensFrom (Reader.faces_ofString source) split⟩
  refused fault failed := Reader.answer_of_tokensFrom (Reader.faces_ofString source) failed

/-- A string over two lines that does not end, and the end of input behind it. -/
example : (Reader.ofString "x \"a\nb").answer 1 = .error ⟨.unterminatedString, ⟨1, 3⟩⟩ ∧
    (Reader.ofString "x \"a\nb").answer 2 = .ok (.endAt ⟨2, 2⟩) := ⟨by rfl, by rfl⟩

end Script
