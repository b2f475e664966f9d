import Script.Proofs.Parse.Lookahead

/-!
# Parsing without going back

A statement that starts with an identifier is first read as an assignment, and a loop first as one
that goes through an array; where that is declined, the cursor goes back and the same tokens are
read once more. `OnePass` has the parsers that read them once: a statement that starts with an
identifier is one expression, and the token behind it says what it is; the form of a loop is told by
the two tokens behind `const` or `mut`.

Both do the same from every cursor of every token list, with the same result, the same fault and
the same cursor: what is read again is read as it was before, and a fault inside an attempt is the
fault of the parser that would have been chosen.

* `attempt_assignment_eq`, `attempt_throughLoop_eq`: one lemma for each place where a parser may go
  back.
* `backtracking_is_unobservable`: so statements are read alike at every depth.
-/

namespace Script.Parse

/-! ## Parsers that read every token once -/

namespace OnePass

/-- The kind of the token so many tokens ahead. -/
def kindAhead (distance : Nat) : Parse Kind := do
  return ((← read).token ((← get) + distance)).kind

/-- A statement that starts with an identifier: an expression with a semicolon behind it, or with
`=` and a value. -/
def identifierStatement : Parse Stmt := do
  let start ← current
  let first ← expression
  match ← accept (.symbol .equals) with
  | none =>
    let _ ← expect (.symbol .semicolon) "Expected ';' after expression"
    return .expression first
  | some _ =>
    let value ← expression
    let _ ← expect (.symbol .semicolon) "Expected ';' after assignment"
    match assignmentTo? start.position first value with
    | some statement => return statement
    | none => throw (.invalidTarget start.position.line)

/-- The loop through an array, whose first three tokens are known. -/
def throughLoop (nested : Parse Stmt) (position : Position) : Parse Stmt := do
  let binding ← advance
  let name ← advance
  let _ ← advance
  let iterable ← expression
  let _ ← expect (.symbol .rightParen) "Expected ')' after iterable"
  let body ← block nested "loop body"
  return .through position name.text (decide (binding.kind = .keyword .constant)) iterable body

/-- A loop of either form. -/
def drift (nested : Parse Stmt) : Parse Stmt := do
  let keyword ← expect (.keyword .drift) "Expected 'drift' keyword"
  let _ ← expect (.symbol .leftParen) "Expected '(' after 'drift'"
  if !(← check [.keyword .constant, .keyword .mutable]) then
    throw (.expected "Expected 'mut' or 'const' in loop header" (← current))
  let first ← kindAhead 1
  let second ← kindAhead 2
  if first = .identifier ∧ second = .keyword .through then throughLoop nested keyword.position
  else countingLoop nested keyword.position

/-- A statement whose nested statements are read by a given parser. -/
def statementWith (nested : Parse Stmt) : Parse Stmt := do
  let token ← current
  match token.kind with
  | .keyword .constant | .keyword .mutable =>
    let statement ← declaration
    let _ ← expect (.symbol .semicolon) "Expected ';' after variable declaration"
    return statement
  | .keyword .procedure => procedure nested
  | .keyword .returns => returns
  | .keyword .leave =>
    let _ ← advance
    let _ ← expect (.symbol .semicolon) "Expected ';' after break statement"
    return .leave token.position
  | .keyword .proceed =>
    let _ ← advance
    let _ ← expect (.symbol .semicolon) "Expected ';' after continue statement"
    return .proceed token.position
  | .keyword .incase => incase nested
  | .keyword .drift => drift nested
  | .identifier => identifierStatement
  | _ => expressionStatement

/-- A statement nested at most so deep. -/
def statementUpTo : (depth : Nat) → Parse Stmt
  | 0 => outOfBudget
  | depth + 1 => statementWith (statementUpTo depth)

/-- A statement. -/
def statement : Parse Stmt := do statementUpTo (← budget)

end OnePass

/-! ## Single steps -/

section

variable {list : TokenList} {cursor : Nat}

theorem advance_apply (goesOn : (list.token cursor).kind ≠ .endOfInput) :
    advance list cursor = .ok (list.token cursor) (cursor + 1) :=
  gives_iff.mp ((gives_advance goesOn).mpr ⟨rfl, rfl⟩)

theorem accept_apply {kind : Kind} (noEnd : kind ≠ .endOfInput) :
    accept kind list cursor =
      if (list.token cursor).kind = kind then .ok (some (list.token cursor)) (cursor + 1)
      else .ok none cursor := by
  have looked : check [kind] list cursor =
      .ok ([kind].contains (list.token cursor).kind) cursor := rfl
  unfold accept acceptAny
  rw [bind_apply, looked]
  by_cases same : (list.token cursor).kind = kind
  · rw [if_pos same]
    have found : [kind].contains (list.token cursor).kind = true := by simp [same]
    dsimp only
    rw [if_pos found, bind_apply, advance_apply (same ▸ noEnd)]
    rfl
  · rw [if_neg same]
    have missing : ¬ [kind].contains (list.token cursor).kind = true := by simp [same]
    dsimp only
    rw [if_neg missing]
    rfl

end

/-! ## Assignments -/

/-- Behind a target without `=`, going back and reading it again leads to where it was. -/
theorem attempt_assignment_eq :
    (do
      match ← attempt assignment with
      | some statement => return statement
      | none => expressionStatement : Parse Stmt) = OnePass.identifierStatement := by
  funext list cursor
  have start : current list cursor = .ok (list.token cursor) cursor := rfl
  rw [Scene.attempt_bind_apply]
  unfold assignment OnePass.identifierStatement
  rw [bind_apply, bind_apply, start]
  dsimp only
  rw [bind_apply, bind_apply]
  cases read : expression list cursor with
  -- a fault in the target ends the attempt too, and a failed attempt does not go back
  | error fault after => rfl
  | ok target after =>
    dsimp only
    rw [bind_apply, bind_apply, accept_apply (by decide)]
    by_cases assigns : (list.token after).kind = .symbol .equals
    · rw [if_pos assigns]
      dsimp only
      rw [bind_apply, bind_apply]
      cases expression list (after + 1) with
      | error fault last => rfl
      | ok value last =>
        dsimp only
        rw [bind_apply, bind_apply]
        cases expect (.symbol .semicolon) "Expected ';' after assignment" list last with
        | error fault stop => rfl
        | ok semicolon stop =>
          dsimp only
          cases assignmentTo? (list.token cursor).position target value <;> rfl
    · rw [if_neg assigns]
      -- declined: the second reading starts from the same cursor, so `read` says what it gives
      show expressionStatement list cursor = _
      unfold expressionStatement
      rw [bind_apply, read]

/-! ## Loops -/

/-- A loop through an array is declined exactly if the two tokens behind the first one do not
announce it, and then the cursor goes back to that one. -/
theorem attempt_throughLoop_eq (nested : Parse Stmt) (position : Position) {list : TokenList}
    {cursor : Nat} (goesOn : (list.token cursor).kind ≠ .endOfInput) :
    (do
      match ← attempt (throughLoop nested position) with
      | some loop => return loop
      | none => countingLoop nested position : Parse Stmt) list cursor =
    (do
      let first ← OnePass.kindAhead 1
      let second ← OnePass.kindAhead 2
      if first = .identifier ∧ second = .keyword .through then
        OnePass.throughLoop nested position
      else countingLoop nested position : Parse Stmt) list cursor := by
  have ahead : ∀ distance, OnePass.kindAhead distance list cursor =
      .ok (list.token (cursor + distance)).kind cursor := fun _ => rfl
  rw [Scene.attempt_bind_apply, bind_apply, ahead]
  dsimp only
  rw [bind_apply, ahead]
  dsimp only
  unfold throughLoop
  rw [bind_apply, advance_apply goesOn]
  dsimp only
  rw [bind_apply, accept_apply (by decide)]
  by_cases names : (list.token (cursor + 1)).kind = .identifier
  · rw [if_pos names]
    dsimp only
    rw [bind_apply, accept_apply (by decide)]
    by_cases through : (list.token (cursor + 1 + 1)).kind = .keyword .through
    · rw [if_pos through, if_pos ⟨names, through⟩]
      have name : advance list (cursor + 1) = .ok (list.token (cursor + 1)) (cursor + 1 + 1) :=
        advance_apply (by rw [names]; decide)
      have word : advance list (cursor + 1 + 1) =
          .ok (list.token (cursor + 1 + 1)) (cursor + 1 + 1 + 1) :=
        advance_apply (by rw [through]; decide)
      unfold OnePass.throughLoop
      rw [bind_apply advance, advance_apply goesOn]
      dsimp only
      rw [bind_apply advance, name]
      dsimp only
      rw [bind_apply advance, word]
      dsimp only
      rw [bind_apply, bind_apply]
      cases expression list (cursor + 1 + 1 + 1) with
      | error fault after => rfl
      | ok iterable after =>
        dsimp only
        rw [bind_apply, bind_apply]
        cases expect (.symbol .rightParen) "Expected ')' after iterable" list after with
        | error fault last => rfl
        | ok _ last =>
          dsimp only
          rw [bind_apply, bind_apply]
          cases block nested "loop body" list last <;> rfl
    · rw [if_neg through, if_neg fun both => through both.2]
      rfl
  · rw [if_neg names, if_neg fun both => names both.1]
    rfl

theorem drift_eq (nested : Parse Stmt) : drift nested = OnePass.drift nested := by
  funext list cursor
  unfold drift OnePass.drift
  rw [bind_apply, bind_apply]
  cases expect (.keyword .drift) "Expected 'drift' keyword" list cursor with
  | error fault after => rfl
  | ok keyword after =>
    dsimp only
    rw [bind_apply, bind_apply]
    cases expect (.symbol .leftParen) "Expected '(' after 'drift'" list after with
    | error fault last => rfl
    | ok _ last =>
      have looked : check [.keyword .constant, .keyword .mutable] list last = .ok
          ([Kind.keyword .constant, .keyword .mutable].contains (list.token last).kind) last := rfl
      dsimp only
      rw [bind_apply, bind_apply, looked]
      dsimp only
      by_cases declares :
          [Kind.keyword .constant, .keyword .mutable].contains (list.token last).kind = true
      · rw [declares]
        -- at the end of the input the cursor would stay, but `const` and `mut` are not the end
        refine attempt_throughLoop_eq nested keyword.position ?_
        intro ended
        rw [ended] at declares
        cases declares
      · rw [Bool.not_eq_true] at declares
        rw [declares]
        rfl

/-! ## Statements -/

theorem statementWith_eq (nested : Parse Stmt) :
    statementWith nested = OnePass.statementWith nested := by
  unfold statementWith OnePass.statementWith
  refine bind_congr fun token => ?_
  obtain ⟨kind, text, position⟩ := token
  cases kind with
  | identifier => exact attempt_assignment_eq
  | keyword word =>
    cases word with
    | drift => exact drift_eq nested
    | _ => rfl
  | _ => rfl

/-- Statements are read alike at every depth, since nested ones are. -/
theorem statementUpTo_eq (depth : Nat) : statementUpTo depth = OnePass.statementUpTo depth := by
  induction depth with
  | zero => rfl
  | succ depth ih =>
    show statementWith (statementUpTo depth) = OnePass.statementWith (OnePass.statementUpTo depth)
    rw [statementWith_eq, ih]

theorem statement_eq_onePass : statement = OnePass.statement := by
  unfold statement OnePass.statement
  exact bind_congr fun depth => statementUpTo_eq depth

/-- An attempt that is declined leaves the cursor where it was; all else it leaves as it is. -/
theorem attempt_run {α : Type} (production : Parse (Option α)) (list : TokenList) (cursor : Nat) :
    (attempt production).run list cursor =
      match production.run list cursor with
      | (.ok none, _) => (.ok none, cursor)
      | ended => ended := by
  have applied := Scene.attempt_bind_apply production pure list cursor
  rw [bind_pure] at applied
  unfold run ReaderT.run
  rw [applied]
  cases production list cursor with
  | error fault after => rfl
  | ok found after => cases found <;> rfl

/-- From every cursor of every token list, statements are read as by the parser that never goes
back, which reads nested statements as it reads outer ones: with the same tree and positions, the
same fault and the same cursor behind it. An attempt at an assignment puts the cursor back exactly
if it is declined; if it fails, the cursor stays where the fault was found. -/
theorem backtracking_is_unobservable (list : TokenList) (cursor : Int) :
    statement.runFrom list cursor = OnePass.statement.runFrom list cursor ∧
    OnePass.statement = OnePass.statementWith OnePass.statement ∧
    (attempt assignment).runFrom list cursor =
      (assignment.runFrom list cursor).map fun ended =>
        match ended with
        | (.ok none, _) => (.ok none, cursor)
        | other => other := by
  refine ⟨by rw [statement_eq_onePass], ?_, ?_⟩
  · rw [← statementWith_eq, ← statement_eq_onePass]
    exact statement_eq
  · unfold runFrom
    cases list.index? cursor with
    | none => rfl
    | some index =>
      simp only [Option.map_some, attempt_run]
      generalize assignment.run list index = ended
      obtain ⟨result, after⟩ := ended
      cases result with
      | error fault => rfl
      | ok found =>
        cases found with
        | some statement => rfl
        | none => simp

end Script.Parse
