import Script.Proofs.Parse.Agreement.Statement
import Script.Proofs.Parse.Joining

/-!
# Parsing ends, and takes tokens

A token list agrees with itself, and with every list that has the same tokens up to the first end of
input. Hence every parser that reads an expression, a statement or a part of one is `Orderly`: it
takes a token if it succeeds, stays before the end of input, looks at nothing behind it, and its
bounds on loops and nesting are never too small. So the bounds can be left out of the equations of
`expression` and `statement`.

* `expression_eq`, `statement_eq`: nested expressions and statements are read as outer ones are.
* `parsing_ends_and_progresses`: what a token list is parsed to, and how far the cursor moves.
-/

namespace Script

/-! ## The first end of input -/

namespace TokenList

/-- The first end of input at a cursor or behind it. -/
structure FirstEnd (list : TokenList) (cursor stop : Nat) : Prop where
  behind : cursor ≤ stop
  ended : (list.token stop).kind = .endOfInput
  goesOn : ∀ index, cursor ≤ index → index < stop → (list.token index).kind ≠ .endOfInput

variable {list : TokenList} {cursor stop : Nat}

theorem FirstEnd.eq (first : list.FirstEnd cursor stop) {index : Nat} (behind : cursor ≤ index)
    (inside : index ≤ stop) (ended : (list.token index).kind = .endOfInput) : index = stop := by
  rcases Nat.lt_or_eq_of_le inside with before | same
  · exact absurd ended (first.goesOn index behind before)
  · exact same

/-- The first end of input stands behind the tokens that the cursor sees. -/
theorem firstEnd_visible (list : TokenList) (cursor : Nat) :
    list.FirstEnd cursor (cursor + (list.visible cursor).length) := by
  generalize seen : list.visible cursor = tokens
  induction tokens generalizing cursor with
  | nil =>
    refine ⟨Nat.le_refl _, kind_of_visible_nil seen, ?_⟩
    intro index behind before
    exact absurd (Nat.lt_of_le_of_lt behind before) (Nat.lt_irrefl _)
  | cons token rest ih =>
    obtain ⟨here, goesOn, further⟩ := token_of_visible seen
    have next := ih (cursor + 1) further
    rw [List.length_cons, Nat.add_comm rest.length 1, ← Nat.add_assoc]
    refine ⟨by omega, next.ended, ?_⟩
    intro index behind before
    rcases Nat.lt_or_eq_of_le behind with further | rfl
    · exact next.goesOn index further before
    · rw [here]
      exact goesOn

/-- From the start of a list, the first end of input stands behind all tokens that count. -/
theorem firstEnd_ofList (tokens : List Token) :
    (ofList tokens).FirstEnd 0 (Grammar.beforeEnd tokens).length := by
  have first := firstEnd_visible (ofList tokens) 0
  rwa [visible_ofList, Nat.zero_add] at first

/-- Lists that go on differently behind an end of input have the same tokens up to it. -/
theorem token_ofList_of_behind {front behind others : List Token} {final : Token} {index : Nat}
    (inside : index ≤ front.length) :
    (ofList (front ++ final :: others)).token index =
      (ofList (front ++ final :: behind)).token index := by
  have here : ∀ rest : List Token, (ofList (front ++ final :: rest)).token index =
      (front ++ [final])[index]?.getD final := by
    intro rest
    have bound : index < (front ++ [final]).length := by
      rw [List.length_append, List.length_singleton]
      omega
    have split : front ++ final :: rest = (front ++ [final]) ++ rest := by simp
    have whole : ∃ more, (ofList (front ++ final :: rest)).tokens.toList =
        (front ++ [final]) ++ more := by
      unfold ofList
      split
      · split
        · exact ⟨rest, split⟩
        · exact ⟨rest ++ _, by rw [split, List.append_assoc]⟩
      · exact absurd ‹_› (by simp)
    obtain ⟨more, whole⟩ := whole
    have token := @token_inside _ [] _ _ whole _ bound
    rw [List.length_nil, Nat.add_zero] at token
    rw [token, List.getElem?_eq_getElem bound, Option.getD_some]
  rw [here, here]

end TokenList

namespace Parse

variable {α : Type}

/-! ## Two lists with the same positions -/

namespace Scene

variable {list other : TokenList} {cursor stop : Nat}

/-- Two lists with the same tokens, but for positions, from a cursor to the first end of input. -/
def ofFirstEnd {shift : Position → Position} (first : list.FirstEnd cursor stop)
    (same : ∀ index, cursor ≤ index → index ≤ stop →
      other.token index = (list.token index).relocate shift) :
    Scene shift list other where
  cursor := cursor
  place := cursor
  room := stop - cursor
  same := fun index inside => same _ (Nat.le_add_right _ _) (by have := first.behind; omega)
  goesOn := fun index inside => first.goesOn _ (Nat.le_add_right _ _) (by omega)
  ended := by rw [Nat.add_sub_cancel' first.behind]; exact first.ended

theorem moves_id {fault found : SyntaxFault} (moves : fault.Moves id found) : found = fault := by
  cases moves <;> rfl

/-- Where no position is shifted, what agrees is the same. -/
theorem Agrees.eq {motion : Motion α} (still : ∀ value, motion.move value = value)
    {scene : Scene id list other} (here : scene.place = scene.cursor) {progress : Nat}
    {parser twin : Parse α} (agrees : scene.Agrees motion progress parser twin) :
    twin other scene.place = parser list scene.cursor := by
  rcases agrees.cases with
    ⟨value, later, taken, ahead, _, run, runOther⟩ |
    ⟨fault, found, later, taken, ahead, moves, run, runOther⟩
  · rw [run, runOther, still, ahead.cursor, ahead.place, here]
  · rw [run, runOther, moves_id moves, ahead.cursor, ahead.place, here]

end Scene

/-! ## Orderly parsers -/

/-- A parser that takes a token if it succeeds, never passes an end of input nor looks behind it,
and never has too small a bound. -/
structure Orderly (parser : Parse α) : Prop where
  moves : ∀ list cursor value after, parser.run list cursor = (.ok value, after) → cursor < after
  stays : ∀ list cursor stop, list.FirstEnd cursor stop → (parser.run list cursor).2 ≤ stop
  bounded : ∀ list cursor line, (parser.run list cursor).1 ≠ .error (.outOfBudget line)
  blind : ∀ list other cursor stop, list.FirstEnd cursor stop →
    (∀ index, cursor ≤ index → index ≤ stop → other.token index = list.token index) →
    parser.run other cursor = parser.run list cursor

variable {list other : TokenList} {cursor stop after : Nat}

theorem run_of_ok {parser : Parse α} {value : α} (found : parser list cursor = .ok value after) :
    parser.run list cursor = (.ok value, after) := by
  unfold run ReaderT.run
  rw [found]

theorem run_of_error {parser : Parse α} {fault : SyntaxFault}
    (found : parser list cursor = .error fault after) :
    parser.run list cursor = (.error fault, after) := by
  unfold run ReaderT.run
  rw [found]

theorem run_congr {parser twin : Parse α} (same : twin other cursor = parser list cursor) :
    twin.run other cursor = parser.run list cursor := by
  unfold run ReaderT.run
  rw [same]

section

variable {motion : Motion α} (still : ∀ value, motion.move value = value) {progress : Nat}

include still

/-- Parsers that agree do the same in a list and in any other with the same tokens up to the end of
input. -/
theorem run_eq_of_agrees {parser twin : Parse α}
    (agrees : ∀ scene : Scene id list other, scene.Agrees motion progress parser twin)
    (first : list.FirstEnd cursor stop)
    (same : ∀ index, cursor ≤ index → index ≤ stop → other.token index = list.token index) :
    twin.run other cursor = parser.run list cursor :=
  run_congr ((agrees (.ofFirstEnd first same)).eq still rfl)

/-- Parsers that agree in every list are one function. -/
theorem eq_of_agrees {parser twin : Parse α}
    (agrees : ∀ (list : TokenList) (scene : Scene id list list),
      scene.Agrees motion progress parser twin) : twin = parser := by
  funext list cursor
  -- wherever the cursor is, an end of input comes behind it
  have first := list.firstEnd_visible cursor
  exact (agrees list (.ofFirstEnd first fun _ _ _ => rfl)).eq still rfl

omit still

/-- A parser that agrees with itself ends before the end of input, and not for want of rounds. -/
theorem run_cases_of_agrees {parser : Parse α}
    (agrees : ∀ scene : Scene id list list, scene.Agrees motion progress parser parser)
    (first : list.FirstEnd cursor stop) :
    (∃ value after, parser.run list cursor = (.ok value, after) ∧ cursor + progress ≤ after ∧
        after ≤ stop) ∨
      ∃ fault after, parser.run list cursor = (.error fault, after) ∧ after ≤ stop ∧
        ∀ line, fault ≠ .outOfBudget line := by
  have behind := first.behind
  rcases (agrees (.ofFirstEnd first fun _ _ _ => rfl)).cases with
    ⟨value, later, taken, ahead, moves, run, _⟩ | ⟨fault, found, later, taken, ahead, moves, run, _⟩
  · have moved : later.cursor = cursor + taken := ahead.cursor
    have left : later.room + taken = stop - cursor := ahead.room
    exact .inl ⟨value, later.cursor, run_of_ok run, by omega, by omega⟩
  · have moved : later.cursor = cursor + taken := ahead.cursor
    have left : later.room + taken = stop - cursor := ahead.room
    refine .inr ⟨fault, later.cursor, run_of_error run, by omega, ?_⟩
    rintro line rfl
    cases moves

include still

/-- A parser that agrees with itself is orderly: each list agrees with itself, and with every other
that looks alike up to the end of input. -/
theorem orderly_of_agrees {parser : Parse α}
    (agrees : ∀ (list other : TokenList) (scene : Scene id list other),
      scene.Agrees motion 1 parser parser) : Orderly parser where
  moves := by
    intro list cursor value after given
    rcases run_cases_of_agrees (agrees list list) (list.firstEnd_visible cursor) with
      ⟨found, stop, run, moves, _⟩ | ⟨fault, stop, run, _⟩
    · cases given.symm.trans run
      exact moves
    · cases given.symm.trans run
  stays := by
    intro list cursor stop first
    rcases run_cases_of_agrees (agrees list list) first with
      ⟨value, after, run, _, inside⟩ | ⟨fault, after, run, inside, _⟩
    · rw [run]
      exact inside
    · rw [run]
      exact inside
  bounded := by
    intro list cursor line given
    rcases run_cases_of_agrees (agrees list list) (list.firstEnd_visible cursor) with
      ⟨value, after, run, _⟩ | ⟨fault, after, run, _, bounded⟩
    · rw [run] at given
      cases given
    · rw [run] at given
      exact bounded line (Except.error.inj given)
  blind := fun list other _ _ first same => run_eq_of_agrees still (agrees list other) first same

end

/-! ## Nesting without bounds -/

open Scene

theorem expressions_still (e : Expr) : (Motion.expressions id).move e = e := e.relocate_id

theorem statements_still (s : Stmt) : (Motion.statements id).move s = s := s.relocate_id

/-- Nested expressions are read as outer ones are. -/
theorem expression_eq : expression = binary expression levels := by
  have agrees : ∀ (list : TokenList) (scene : Scene id list list),
      scene.Agrees (.expressions id) 1 expression (binary expression levels) := by
    intro list scene
    refine agrees_budget_left fun rounds enough => ?_
    cases rounds with
    -- the budget is one more than the tokens, so it is never zero
    | zero => omega
    | succ depth =>
      have nested : ReadsBelow id list list depth (expressionUpTo depth) expression := by
        intro later short
        exact agrees_budget_right fun more enoughOther => agrees_expressionUpTo short enoughOther
      exact agrees_binary nested levels enough
  exact (eq_of_agrees expressions_still agrees).symm

/-- Nested statements are read as outer ones are. -/
theorem statement_eq : statement = statementWith statement := by
  have agrees : ∀ (list : TokenList) (scene : Scene id list list),
      scene.Agrees (.statements id) 1 statement (statementWith statement) := by
    intro list scene
    refine agrees_budget_left fun rounds enough => ?_
    cases rounds with
    -- the budget is one more than the tokens, so it is never zero
    | zero => omega
    | succ depth =>
      have nested : RunsBelow id list list depth (statementUpTo depth) statement := by
        intro later short
        exact agrees_budget_right fun more enoughOther => agrees_statementUpTo short enoughOther
      exact agrees_statementWith nested enough
  exact (eq_of_agrees statements_still agrees).symm

/-! ## The parsers of the language -/

/-- The cursor moves by one token, and not at the end of input. -/
theorem advance_run (first : list.FirstEnd cursor stop) :
    advance.run list cursor = (.ok (list.token cursor), min (cursor + 1) stop) := by
  have behind := first.behind
  by_cases ended : (list.token cursor).kind = .endOfInput
  · have here : cursor = stop := first.eq (Nat.le_refl _) behind ended
    have given : advance.Gives list cursor (list.token cursor) cursor := by
      unfold advance
      rw [gives_current_bind, if_pos ended]
      exact gives_pure.mpr ⟨rfl, rfl⟩
    rw [show min (cursor + 1) stop = cursor by omega]
    exact given
  · have before : cursor ≠ stop := by
      rintro rfl
      exact ended first.ended
    rw [show min (cursor + 1) stop = cursor + 1 by omega]
    exact (gives_advance ended).mpr ⟨rfl, rfl⟩

theorem still_list {motion : Motion α} (still : ∀ value, motion.move value = value)
    (values : List α) : motion.list.move values = values := by
  show values.map motion.move = values
  rw [funext still, List.map_id']

/-- The bounds of nested expressions are never too small, however deep they lie. -/
theorem readsBelow_expression {list other : TokenList} (bound : Nat) :
    ReadsBelow id list other bound expression expression := fun _ _ => agrees_expression

theorem runsBelow_statement {list other : TokenList} (bound : Nat) :
    RunsBelow id list other bound statement statement := fun _ _ => agrees_statement

theorem orderly_statement : Orderly statement :=
  orderly_of_agrees statements_still fun _ _ _ => agrees_statement

theorem orderly_binary (levels : List Level) : Orderly (binary expression levels) :=
  orderly_of_agrees expressions_still fun _ _ scene =>
    agrees_binary (readsBelow_expression scene.room) levels (Nat.lt_succ_self _)

theorem orderly_expression : Orderly expression := by
  rw [expression_eq]
  exact orderly_binary levels

theorem orderly_unary : Orderly (unary expression) :=
  orderly_of_agrees expressions_still fun _ _ scene =>
    agrees_unary (readsBelow_expression scene.room) (Nat.lt_succ_self _)

theorem orderly_chain : Orderly (chain expression) :=
  orderly_of_agrees expressions_still fun _ _ scene =>
    agrees_chain (readsBelow_expression scene.room) (Nat.lt_succ_self _)

theorem orderly_primary : Orderly (primary expression) :=
  orderly_of_agrees expressions_still fun _ _ scene =>
    agrees_primary (readsBelow_expression scene.room) (Nat.lt_succ_self _)

theorem orderly_arguments : Orderly (arguments expression) :=
  orderly_of_agrees (still_list expressions_still) fun _ _ scene =>
    agrees_arguments (readsBelow_expression (scene.room + 1)) (Nat.lt_succ_self _)

theorem orderly_block (what : String) : Orderly (block statement what) :=
  orderly_of_agrees (still_list statements_still) fun _ _ scene =>
    agrees_block (runsBelow_statement scene.room) (Nat.lt_succ_self _) what

/-! ## Programs -/

/-- Statements end before a token of a kind that ends them. -/
theorem kind_of_gives_statementsUntil {nested : Parse Stmt} {ends : List Kind} {rounds : Nat}
    {body : List Stmt} (given : (statementsUntil nested ends rounds).Gives list cursor body after) :
    ends.contains (list.token after).kind = true := by
  induction rounds generalizing cursor body with
  | zero => exact absurd given gives_outOfBudget
  | succ rounds ih =>
    unfold statementsUntil at given
    rw [gives_check_bind] at given
    cases ended : ends.contains (list.token cursor).kind with
    | true =>
      rw [ended] at given
      obtain ⟨rfl, rfl⟩ := gives_pure.mp given
      exact ended
    | false =>
      rw [ended] at given
      obtain ⟨first, middle, _, rest⟩ := gives_bind.mp given
      obtain ⟨others, readOthers, rfl⟩ := gives_bind_pure.mp rest
      exact ih readOthers

theorem programs_still (program : Program) : (Motion.programs id).move program = program := by
  show Program.mk program.position (relocateBlock id program.body) = program
  rw [relocateBlock_id]

/-- A program ends at the first end of input, and a fault is found at it or before it. -/
theorem program_run_cases (first : list.FirstEnd cursor stop) :
    (∃ found, program.run list cursor = (.ok found, stop)) ∨
      ∃ fault after, program.run list cursor = (.error fault, after) ∧ after ≤ stop ∧
        ∀ line, fault ≠ .outOfBudget line := by
  have agrees : ∀ scene : Scene id list list, scene.Agrees (.programs id) 0 program program :=
    fun _ => agrees_program
  rcases run_cases_of_agrees agrees first with
    ⟨found, after, run, behind, inside⟩ | fails
  · have given : program.Gives list cursor found after := run
    unfold program at given
    rw [gives_current_bind, gives_budget_bind] at given
    obtain ⟨body, statements, _⟩ := gives_bind_pure.mp given
    have ended := kind_of_gives_statementsUntil statements
    have stopped : after = stop := first.eq behind inside (by simpa using ended)
    exact .inl ⟨found, stopped ▸ run⟩
  · exact .inr fails

/-- Nothing behind an end of input is looked at. -/
theorem program_run_behind {front behind others : List Token} {final : Token}
    (ended : final.kind = .endOfInput) :
    program.run (.ofList (front ++ final :: others)) 0 =
      program.run (.ofList (front ++ final :: behind)) 0 := by
  have first := TokenList.firstEnd_ofList (front ++ final :: behind)
  refine run_eq_of_agrees programs_still (fun _ => agrees_program) first ?_
  intro index _ inside
  refine TokenList.token_ofList_of_behind (Nat.le_trans inside ?_)
  unfold Grammar.beforeEnd
  rw [List.takeWhile_append, List.takeWhile_cons_of_neg (by simpa using ended)]
  split
  · rw [List.append_nil]
  · exact (List.takeWhile_sublist _).length_le

/-- A number token is read as the number that its text is a numeral of. -/
theorem primary_run_of_number (numerals : Grammar.ValidNumerals list.tokens.toList)
    (number : (list.token cursor).kind = .number) (nested : Parse Expr) :
    ∃ value, Numeral.number? (list.token cursor).text = some value ∧
      (primary nested).run list cursor =
        (.ok (.number (list.token cursor).position value), cursor + 1) := by
  have goesOn : (list.token cursor).kind ≠ .endOfInput := by
    rw [number]
    decide
  have member : list.token cursor ∈ list.tokens.toList := by
    have seen : list.token cursor ∈ list.visible cursor := by
      rw [TokenList.visible_of_kind goesOn]
      exact List.mem_cons_self
    exact TokenList.mem_of_mem_visible seen
  obtain ⟨value, read⟩ := Option.isSome_iff_exists.mp (numerals _ member number)
  refine ⟨value, read, ?_⟩
  have given : (primary nested).Gives list cursor
      (.number (list.token cursor).position (Numeral.value (list.token cursor).text))
      (cursor + 1) := by
    unfold primary
    rw [gives_current_bind, number]
    exact (gives_advance_bind goesOn).mpr (gives_pure.mpr ⟨rfl, rfl⟩)
  rw [show Numeral.value (list.token cursor).text = value by
    unfold Numeral.value
    rw [read, Option.getD_some]] at given
  exact given

end Parse

open Parse

/-- Every token list is parsed to a program, whose end is the first end of input, or to a fault
before it, and never for want of a bound; what stands behind the end of input does not matter. Every
parser of the language takes a token where it succeeds, and nests without a bound. -/
theorem parsing_ends_and_progresses (tokens : List Token)
    (numerals : Grammar.ValidNumerals tokens) :
    ((∃ found, parse tokens = .ok found ∧
        program.run (.ofList tokens) 0 = (.ok found, (Grammar.beforeEnd tokens).length)) ∨
      ∃ fault after, parse tokens = .error fault ∧
        program.run (.ofList tokens) 0 = (.error fault, after) ∧
        after ≤ (Grammar.beforeEnd tokens).length ∧ ∀ line, fault ≠ .outOfBudget line) ∧
    (∀ cursor, ((TokenList.ofList tokens).token cursor).kind = .number →
      ∃ value, Numeral.number? ((TokenList.ofList tokens).token cursor).text = some value ∧
        (primary expression).run (.ofList tokens) cursor =
          (.ok (.number ((TokenList.ofList tokens).token cursor).position value), cursor + 1)) ∧
    (∀ front final behind others, tokens = front ++ final :: behind → final.kind = .endOfInput →
      program.run (.ofList (front ++ final :: others)) 0 = program.run (.ofList tokens) 0) ∧
    (∀ list cursor stop, list.FirstEnd cursor stop →
      advance.run list cursor = (.ok (list.token cursor), min (cursor + 1) stop)) ∧
    (expression = binary expression levels ∧ statement = statementWith statement) ∧
    Orderly statement ∧ Orderly expression ∧ (∀ levels, Orderly (binary expression levels)) ∧
    Orderly (unary expression) ∧ Orderly (chain expression) ∧ Orderly (primary expression) ∧
    (∀ what, Orderly (block statement what)) ∧ Orderly (arguments expression) := by
  refine ⟨?_, ?_, ?_, fun _ _ _ first => advance_run first, ⟨expression_eq, statement_eq⟩,
    orderly_statement, orderly_expression, orderly_binary, orderly_unary, orderly_chain,
    orderly_primary, orderly_block, orderly_arguments⟩
  · rcases program_run_cases (TokenList.firstEnd_ofList tokens) with ⟨found, run⟩ | fails
    · exact .inl ⟨found, congrArg Prod.fst run, run⟩
    · obtain ⟨fault, after, run, inside, bounded⟩ := fails
      exact .inr ⟨fault, after, congrArg Prod.fst run, run, inside, bounded⟩
  · intro cursor number
    exact primary_run_of_number (validNumerals_ofList numerals) number expression
  · rintro front final behind others rfl ended
    exact program_run_behind ended

/-- An expression statement, an end of input, and a number that is never reached. -/
def interruptedTokens : List Token :=
  [⟨.number, "2", ⟨1, 1⟩⟩, ⟨.symbol .semicolon, ";", ⟨1, 2⟩⟩, .endAt ⟨1, 3⟩, ⟨.number, "1", ⟨1, 4⟩⟩]

theorem interruptedTokens_parse : Grammar.ValidNumerals interruptedTokens ∧
    (∃ found, parse interruptedTokens = .ok found ∧
      program.run (.ofList interruptedTokens) 0 = (.ok found, 2)) ∧
    ∀ others, program.run (.ofList (interruptedTokens.take 3 ++ others)) 0 =
      program.run (.ofList interruptedTokens) 0 := by
  have numerals : Grammar.ValidNumerals interruptedTokens := by
    unfold Grammar.ValidNumerals
    decide +kernel
  obtain ⟨ends, _, behind, _⟩ := parsing_ends_and_progresses interruptedTokens numerals
  refine ⟨numerals, ?_, fun others => ?_⟩
  · rcases ends with parsed | ⟨fault, after, parsed, _⟩
    · exact parsed
    · cases parsed
  · exact behind (interruptedTokens.take 2) _ _ others rfl rfl

end Script
