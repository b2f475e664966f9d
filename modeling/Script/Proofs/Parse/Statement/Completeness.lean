import Script.Proofs.Grammar.Statement
import Script.Proofs.Parse.Expression.Completeness
import Script.Proofs.Parse.Statement.Soundness

/-!
# What statement parsers do not refuse

Every statement that the grammar derives is parsed, to the same tree up to positions:
`statement_complete` at the end, one lemma for each parser before. A conditional must not be
followed by a branch, which it would take (`NoBranch`); nothing that starts a statement or ends a
block is one.
-/

namespace Script.Parse

open Grammar

variable {list : TokenList} {cursor bound : Nat}

/-- A parser accepts every statement of fewer tokens than a bound. -/
def AcceptsStatements (list : TokenList) (nested : Parse Stmt) (bound : Nat) : Prop :=
  ∀ {cursor : Nat} {s : Stmt} {rest : List Token}, Statement (list.visible cursor) s rest →
    NoBranch rest → (list.visible cursor).length < bound →
    nested.Accepts list cursor (·.erase = s) rest

/-- An expression before a symbol that ends it. -/
theorem accepts_expression {input tail : List Token} {e : Expr} {token : Token} {mark : Symbol}
    (seen : list.visible cursor = input) (reading : Expression input e (token :: tail))
    (kind : token.kind = .symbol mark) (terminator : Terminator mark) :
    expression.Accepts list cursor (·.erase = e) (token :: tail) := by
  subst seen
  exact expression_complete reading (terminator.stops kind 0 tail)

/-! ## Blocks -/

section

variable {nested : Parse Stmt} (accepts : AcceptsStatements list nested bound)

include accepts

/-- Statements are parsed one after the other, up to the token that ends them, since no statement
starts with such a token. -/
theorem statementsUntil_complete {ends : List Kind}
    (endings : ∀ kind ∈ ends, kind = .endOfInput ∨ Follows kind) {input rest : List Token}
    {body : List Stmt} (noBranch : NoBranch rest)
    (ended : ∀ {place}, list.visible place = rest → (list.token place).kind ∈ ends) :
    Statements input body rest → ∀ {cursor}, list.visible cursor = input →
      input.length < bound → ∀ {rounds}, input.length < rounds →
      (statementsUntil nested ends rounds).Accepts list cursor (eraseBlock · = body) rest
  | .none, cursor, seen, _, rounds, many => by
    cases rounds with
    | zero => omega
    | succ rounds =>
      rw [statementsUntil, accepts_check_bind, if_pos (by simpa using ended seen)]
      exact accepts_pure rfl seen
  | .cons first others, cursor, seen, short, rounds, many => by
    cases rounds with
    | zero => omega
    | succ rounds =>
      have less := first.shorter
      subst seen
      have goesOn : (list.token cursor).kind ∉ ends := by
        intro member
        -- a statement starts with none of the tokens that end a block
        obtain ⟨token, tail, cons, starts⟩ := first.starts
        obtain ⟨here, notEnd, _⟩ := TokenList.token_of_visible cons
        rw [here] at member
        rcases endings _ member with final | follows
        · exact notEnd final
        · exact starts follows
      rw [statementsUntil, accepts_check_bind, if_neg (by simpa using goesOn)]
      refine .bind (accepts first (others.noBranch noBranch) short) ?_
      intro found middle same left
      refine .bind (statementsUntil_complete endings noBranch ended others left (by omega)
        (by omega)) ?_
      intro tail after sameTail behind
      exact accepts_pure (by rw [eraseBlock, same, sameTail]) behind

/-- A block is parsed up to its closing brace, which no branch of a conditional starts with. -/
theorem block_complete {what : String} {input rest : List Token} {body : List Stmt}
    (reading : Block input body rest) (seen : list.visible cursor = input)
    (short : input.length ≤ bound) :
    (block nested what).Accepts list cursor (eraseBlock · = body) rest := by
  cases reading with
  | @mk opening input _ closing _ openKind statements closeKind =>
    rw [List.length_cons] at short
    unfold block
    refine .bind (accepts_expect _ seen openKind) ?_
    rintro _ inside rfl seenInside
    rw [accepts_budget_bind]
    refine .bind (statementsUntil_complete accepts ?_ (.brace closeKind rest) ?_ statements
      seenInside short (seenInside ▸ length_visible_lt_budget list inside)) ?_
    · intro kind member
      simp only [List.mem_cons, List.not_mem_nil, or_false] at member
      rcases member with rfl | rfl
      · exact .inr .brace
      · exact .inl rfl
    · intro place seenPlace
      rw [(TokenList.token_of_visible seenPlace).1, closeKind]
      exact List.mem_cons_self
    intro found place same left
    refine .bind (accepts_expect _ left closeKind) ?_
    rintro _ last rfl behind
    exact accepts_pure same behind

end

/-! ## Declarations and assignments -/

theorem declaration_complete {input tail : List Token} {s : Stmt} {token : Token} {mark : Symbol}
    (reading : Declaration input s (token :: tail)) (seen : list.visible cursor = input)
    (kind : token.kind = .symbol mark) (terminator : Terminator mark) :
    declaration.Accepts list cursor (·.erase = s) (token :: tail) := by
  cases reading with
  | mk binding nameKind equalsKind value =>
    unfold declaration
    refine .bind (accepts_advance seen) ?_
    rintro _ second rfl afterKeyword
    refine .bind (accepts_expect _ afterKeyword nameKind) ?_
    rintro _ third rfl afterName
    refine .bind (accepts_expect _ afterName equalsKind) ?_
    rintro _ fourth rfl afterEquals
    refine .bind (accepts_expression afterEquals value kind terminator) ?_
    rintro found last rfl behind
    exact accepts_pure (by rw [Stmt.erase, (declarator_iff.mp binding).2]) behind

theorem assignmentTo?_of_assignment {target value : Expr} {s : Stmt} (position : Position)
    (assigns : Assignment target.erase value.erase s) :
    ∃ found, assignmentTo? position target value = some found ∧ found.erase = s := by
  cases target with
  | identifier _ name =>
    cases assigns
    exact ⟨_, rfl, rfl⟩
  | member _ object property =>
    cases assigns
    exact ⟨_, rfl, rfl⟩
  | computed _ object key =>
    cases assigns
    exact ⟨_, rfl, rfl⟩
  | _ => cases assigns

theorem assignment_complete {input middle rest : List Token} {target value : Expr} {s : Stmt}
    {equals semicolon : Token} (seen : list.visible cursor = input)
    (readTarget : Expression input target (equals :: middle))
    (equalsKind : equals.kind = .symbol .equals)
    (readValue : Expression middle value (semicolon :: rest))
    (semicolonKind : semicolon.kind = .symbol .semicolon)
    (assigns : Assignment target value s) :
    assignment.Accepts list cursor (∃ found, · = some found ∧ found.erase = s) rest := by
  unfold assignment
  rw [accepts_current_bind]
  refine .bind (accepts_expression seen readTarget equalsKind .equals) ?_
  rintro foundTarget second rfl afterTarget
  refine .bind (accepts_accept afterTarget equalsKind) ?_
  rintro _ third rfl afterEquals
  refine .bind (accepts_expression afterEquals readValue semicolonKind .semicolon) ?_
  rintro foundValue fourth rfl afterValue
  refine .bind (accepts_expect _ afterValue semicolonKind) ?_
  rintro _ last rfl behind
  obtain ⟨found, made, same⟩ :=
    assignmentTo?_of_assignment (list.token cursor).position assigns
  rw [made]
  exact accepts_pure ⟨found, rfl, same⟩ behind

/-- An expression before a semicolon is no assignment. -/
theorem assignment_declines {input rest : List Token} {e : Expr} {semicolon : Token}
    (seen : list.visible cursor = input) (reading : Expression input e (semicolon :: rest))
    (kind : semicolon.kind = .symbol .semicolon) :
    (attempt assignment).Accepts list cursor (· = none) input := by
  have declined : assignment.Accepts list cursor (· = none) (semicolon :: rest) := by
    unfold assignment
    rw [accepts_current_bind]
    refine .bind (accepts_expression seen reading kind .semicolon) ?_
    rintro found second - afterExpression
    refine .bind (accepts_accept_none (by decide) afterExpression ?_) ?_
    · rintro token tail ⟨⟩
      rw [kind]
      decide
    rintro _ last rfl behind
    exact accepts_pure rfl behind
  obtain ⟨_, after, given, rfl, _⟩ := declined
  exact ⟨none, cursor, gives_attempt_none.mpr ⟨rfl, after, given⟩, rfl, seen⟩

/-! ## Procedures -/

theorem not_mem_of_nodup_append {name : String} {seen others : List String}
    (distinct : (seen ++ name :: others).Nodup) : name ∉ seen := by
  intro member
  exact (List.nodup_append.mp distinct).2.2 name member name List.mem_cons_self rfl

theorem parametersFrom_complete {procedure : String} {closing : Token} {rest ending : List Token}
    (closeKind : closing.kind = .symbol .rightParen) (behind : ending = closing :: rest)
    {input : List Token} {names : List String} (reading : Names input names ending) :
    ∀ {cursor seen rounds}, list.visible cursor = input → (seen ++ names).Nodup →
      input.length < rounds →
      (parametersFrom procedure seen rounds).Accepts list cursor (· = seen ++ names) ending := by
  -- by induction on the names; those seen so far stay different from all that follow
  induction reading with
  | @last name tail nameKind =>
    intro cursor seen rounds visible distinct many
    subst behind
    cases rounds with
    | zero => omega
    | succ rounds =>
      unfold parametersFrom
      refine .bind (accepts_expect _ visible nameKind) ?_
      rintro _ second rfl afterName
      rw [if_neg (by simpa using not_mem_of_nodup_append distinct)]
      refine .bind (accepts_accept_none (by decide) afterName ?_) ?_
      · rintro token tail ⟨⟩
        rw [closeKind]
        decide
      rintro _ last rfl left
      exact accepts_pure rfl left
  | @more name comma input names tail nameKind commaKind _ ih =>
    intro cursor seen rounds visible distinct many
    cases rounds with
    | zero => omega
    | succ rounds =>
      simp only [List.length_cons] at many
      unfold parametersFrom
      refine .bind (accepts_expect _ visible nameKind) ?_
      rintro _ second rfl afterName
      rw [if_neg (by simpa using not_mem_of_nodup_append distinct)]
      refine .bind (accepts_accept afterName commaKind) ?_
      rintro _ third rfl afterComma
      -- two tokens were taken, so one round less is enough
      have fewer : input.length < rounds := by omega
      rw [List.append_cons] at distinct
      have others := ih behind afterComma distinct fewer
      rwa [← List.append_cons] at others

section

variable {nested : Parse Stmt} (accepts : AcceptsStatements list nested bound)

include accepts

theorem procedure_complete {keyword name opening : Token} {input middle rest : List Token}
    {parameters : List String} {body : List Stmt}
    (seen : list.visible cursor = keyword :: name :: opening :: input)
    (short : input.length ≤ bound) (keywordKind : keyword.kind = .keyword .procedure)
    (nameKind : name.kind = .identifier) (openKind : opening.kind = .symbol .leftParen)
    (readParameters : Parameters input parameters middle) (readBody : Block middle body rest) :
    (procedure nested).Accepts list cursor
      (·.erase = .procedure default name.text parameters body) rest := by
  have less := readParameters.shorter
  -- the body, wherever the parameters ended
  have bodyAccepted : ∀ {place}, list.visible place = middle →
      (block nested "procedure body" >>= fun found =>
        pure (Stmt.procedure keyword.position name.text parameters found)).Accepts list place
        (·.erase = .procedure default name.text parameters body) rest := by
    intro place seenPlace
    refine .bind (block_complete accepts readBody seenPlace (by omega)) ?_
    rintro found last rfl behind
    exact accepts_pure rfl behind
  unfold procedure
  refine .bind (accepts_expect _ seen keywordKind) ?_
  rintro _ second rfl afterKeyword
  refine .bind (accepts_expect _ afterKeyword nameKind) ?_
  rintro _ third rfl afterName
  refine .bind (accepts_expect _ afterName openKind) ?_
  rintro _ fourth rfl afterOpening
  rw [accepts_check_bind]
  cases readParameters with
  | none closeKind =>
    obtain ⟨here, _, _⟩ := TokenList.token_of_visible afterOpening
    rw [if_pos (by simp [here, closeKind])]
    refine .bind (accepts_pure rfl afterOpening) ?_
    rintro found fifth rfl seenFifth
    refine .bind (accepts_expect _ seenFifth closeKind) ?_
    rintro _ last rfl behind
    exact bodyAccepted behind
  | some names distinct closeKind =>
    -- a parameter stands where the parenthesis could
    have notClosed : (list.token fourth).kind ≠ .symbol .rightParen := by
      cases names with
      | last nameKind => exact kind_ne_of_visible afterOpening nameKind (by decide)
      | more nameKind _ _ => exact kind_ne_of_visible afterOpening nameKind (by decide)
    rw [if_neg (by simp [notClosed]), accepts_budget_bind]
    have distinct' : ([] ++ parameters).Nodup := distinct
    refine .bind (parametersFrom_complete closeKind rfl names afterOpening distinct'
      (afterOpening ▸ length_visible_lt_budget list fourth)) ?_
    rintro found fifth rfl afterNames
    refine .bind (accepts_expect _ afterNames closeKind) ?_
    rintro _ last rfl behind
    exact bodyAccepted behind

/-! ## Conditionals -/

omit accepts in
theorem condition_complete {keyword : String} {input rest : List Token} {e : Expr}
    (reading : Condition input e rest) (seen : list.visible cursor = input) :
    (condition keyword).Accepts list cursor (·.erase = e) rest := by
  cases reading with
  | mk openKind inner closeKind =>
    unfold condition
    refine .bind (accepts_expect _ seen openKind) ?_
    rintro _ second rfl afterOpening
    refine .bind (accepts_expression afterOpening inner closeKind .paren) ?_
    rintro found third rfl afterInner
    refine .bind (accepts_expect _ afterInner closeKind) ?_
    rintro _ last rfl behind
    exact accepts_pure rfl behind

theorem fallback_complete {input rest : List Token} {otherwise : Fallback}
    (noBranch : NoBranch rest) :
    Otherwise input otherwise rest → ∀ {cursor}, list.visible cursor = input →
      input.length ≤ bound → ∀ {rounds}, input.length < rounds →
      (fallback nested rounds).Accepts list cursor (·.erase = otherwise) rest
  -- by recursion on the reading; each branch takes tokens, so the rounds are enough
  | _, _, _, _, 0, many => by omega
  | .nothing, cursor, seen, _, rounds + 1, _ => by
    rw [fallback]
    refine .bind (accepts_accept_none (by decide) seen ?_) ?_
    · intro token tail cons
      exact (noBranch token tail cons).1
    rintro _ second rfl seenSecond
    refine .bind (accepts_accept_none (by decide) seenSecond ?_) ?_
    · intro token tail cons
      exact (noBranch token tail cons).2
    rintro _ last rfl behind
    exact accepts_pure rfl behind
  | .block keywordKind body, cursor, seen, short, rounds + 1, _ => by
    rw [List.length_cons] at short
    rw [fallback]
    refine .bind (accepts_accept_none (by decide) seen ?_) ?_
    · rintro token tail ⟨⟩
      rw [keywordKind]
      decide
    rintro _ second rfl seenSecond
    refine .bind (accepts_accept seenSecond keywordKind) ?_
    rintro _ third rfl afterKeyword
    refine .bind (block_complete accepts body afterKeyword (by omega)) ?_
    rintro found last rfl behind
    exact accepts_pure rfl behind
  | .elif keywordKind test body others, cursor, seen, short, rounds + 1, many => by
    have first := test.shorter
    have second := body.shorter
    rw [List.length_cons] at short many
    rw [fallback]
    refine .bind (accepts_accept seen keywordKind) ?_
    rintro _ second rfl afterKeyword
    refine .bind (condition_complete test afterKeyword) ?_
    rintro foundTest third rfl afterTest
    refine .bind (block_complete accepts body afterTest (by omega)) ?_
    rintro foundBody fourth rfl afterBody
    refine .bind (fallback_complete noBranch others afterBody (by omega) (by omega)) ?_
    rintro foundOthers last rfl behind
    exact accepts_pure rfl behind

theorem incase_complete {keyword : Token} {input middle last rest : List Token} {e : Expr}
    {body : List Stmt} {otherwise : Fallback} (seen : list.visible cursor = keyword :: input)
    (short : input.length ≤ bound) (keywordKind : keyword.kind = .keyword .incase)
    (test : Condition input e middle) (readBody : Block middle body last)
    (others : Otherwise last otherwise rest) (noBranch : NoBranch rest) :
    (incase nested).Accepts list cursor (·.erase = .incase default e body otherwise) rest := by
  have testShorter := test.shorter
  have bodyShorter := readBody.shorter
  unfold incase
  refine .bind (accepts_expect _ seen keywordKind) ?_
  rintro _ second rfl afterKeyword
  refine .bind (condition_complete test afterKeyword) ?_
  rintro foundTest third rfl afterTest
  refine .bind (block_complete accepts readBody afterTest (by omega)) ?_
  rintro foundBody fourth rfl afterBody
  rw [accepts_budget_bind]
  refine .bind (fallback_complete accepts noBranch others afterBody (by omega)
    (afterBody ▸ length_visible_lt_budget list fourth)) ?_
  rintro foundOthers last rfl behind
  exact accepts_pure rfl behind

/-! ## Loops -/

theorem throughLoop_complete {binding name through closing : Token}
    {input middle rest : List Token} {constant : Bool} {iterable : Expr} {body : List Stmt}
    (position : Position)
    (seen : list.visible cursor = binding :: name :: through :: input)
    (short : input.length ≤ bound) (binds : Declarator binding.kind constant)
    (nameKind : name.kind = .identifier) (throughKind : through.kind = .keyword .through)
    (readIterable : Expression input iterable (closing :: middle))
    (closeKind : closing.kind = .symbol .rightParen) (readBody : Block middle body rest) :
    (attempt (throughLoop nested position)).Accepts list cursor
      (∃ found, · = some found ∧ found.erase = .through default name.text constant iterable body)
      rest := by
  have less := readIterable.shorter
  rw [List.length_cons] at less
  have parsed : (throughLoop nested position).Accepts list cursor
      (∃ found, · = some found ∧ found.erase = .through default name.text constant iterable body)
      rest := by
    unfold throughLoop
    refine .bind (accepts_advance seen) ?_
    rintro _ second rfl afterBinding
    refine .bind (accepts_accept afterBinding nameKind) ?_
    rintro _ third rfl afterName
    refine .bind (accepts_accept afterName throughKind) ?_
    rintro _ fourth rfl afterThrough
    refine .bind (accepts_expression afterThrough readIterable closeKind .paren) ?_
    rintro foundIterable fifth rfl afterIterable
    refine .bind (accepts_expect _ afterIterable closeKind) ?_
    rintro _ sixth rfl afterClosing
    refine .bind (block_complete accepts readBody afterClosing (by omega)) ?_
    rintro foundBody last rfl behind
    exact accepts_pure ⟨_, rfl, by rw [Stmt.erase, (declarator_iff.mp binds).2]⟩ behind
  obtain ⟨_, after, given, ⟨found, rfl, same⟩, left⟩ := parsed
  exact ⟨some found, after, gives_attempt_some.mpr given, ⟨found, rfl, same⟩, left⟩

omit accepts in
/-- A declaration is no header of a loop through an array. -/
theorem throughLoop_declines {input rest : List Token} {init : Stmt} (position : Position)
    (seen : list.visible cursor = input) (reading : Declaration input init rest) :
    (attempt (throughLoop nested position)).Accepts list cursor (· = none) input := by
  -- behind the name of a declaration an equals sign stands, and no `through`
  have declined : ∃ rest, (throughLoop nested position).Accepts list cursor (· = none) rest := by
    cases reading with
    | @mk _ _ name equals input _ _ _ nameKind equalsKind _ =>
      refine ⟨equals :: input, ?_⟩
      unfold throughLoop
      refine .bind (accepts_advance seen) ?_
      rintro _ second rfl afterBinding
      refine .bind (accepts_accept afterBinding nameKind) ?_
      rintro _ third rfl afterName
      refine .bind (accepts_accept_none (by decide) afterName ?_) ?_
      · rintro token tail ⟨⟩
        rw [equalsKind]
        decide
      rintro _ last rfl behind
      exact accepts_pure rfl behind
  obtain ⟨_, _, after, given, rfl, _⟩ := declined
  exact ⟨none, cursor, gives_attempt_none.mpr ⟨rfl, after, given⟩, rfl, seen⟩

/-- A counting loop is parsed part by part. Each part is shorter than the whole, so the body is
short enough. -/
theorem countingLoop_complete {first second name equals closing : Token}
    {input afterInit update middle rest : List Token} {init : Stmt} {test value : Expr}
    {body : List Stmt} (position : Position) (seen : list.visible cursor = input)
    (short : input.length ≤ bound) (readInit : Declaration input init (first :: afterInit))
    (firstKind : first.kind = .symbol .semicolon)
    (readTest : Expression afterInit test (second :: name :: equals :: update))
    (secondKind : second.kind = .symbol .semicolon) (nameKind : name.kind = .identifier)
    (equalsKind : equals.kind = .symbol .equals)
    (readUpdate : Expression update value (closing :: middle))
    (closeKind : closing.kind = .symbol .rightParen) (readBody : Block middle body rest) :
    (countingLoop nested position).Accepts list cursor
      (·.erase = .drift default init test (.assign default name.text value) body) rest := by
  have initShorter := readInit.shorter
  have testShorter := readTest.shorter
  have updateShorter := readUpdate.shorter
  simp only [List.length_cons] at initShorter testShorter updateShorter
  unfold countingLoop
  refine .bind (declaration_complete readInit seen firstKind .semicolon) ?_
  rintro foundInit two rfl seenFirst
  refine .bind (accepts_expect _ seenFirst firstKind) ?_
  rintro _ three rfl seenTest
  refine .bind (accepts_expression seenTest readTest secondKind .semicolon) ?_
  rintro foundTest four rfl seenSecond
  refine .bind (accepts_expect _ seenSecond secondKind) ?_
  rintro _ five rfl seenName
  refine .bind (accepts_expect _ seenName nameKind) ?_
  rintro _ six rfl seenEquals
  refine .bind (accepts_expect _ seenEquals equalsKind) ?_
  rintro _ seven rfl seenUpdate
  refine .bind (accepts_expression seenUpdate readUpdate closeKind .paren) ?_
  rintro foundUpdate eight rfl seenClosing
  refine .bind (accepts_expect _ seenClosing closeKind) ?_
  rintro _ nine rfl seenBody
  refine .bind (block_complete accepts readBody seenBody (by omega)) ?_
  rintro foundBody last rfl behind
  exact accepts_pure rfl behind

omit accepts in
/-- Behind the keyword and the parenthesis of a loop, both forms are tried. -/
theorem drift_complete {keyword opening binding : Token} {input rest : List Token}
    {constant : Bool} {s : Stmt}
    (seen : list.visible cursor = keyword :: opening :: binding :: input)
    (keywordKind : keyword.kind = .keyword .drift) (openKind : opening.kind = .symbol .leftParen)
    (binds : Declarator binding.kind constant)
    (loop : ∀ {place}, list.visible place = binding :: input →
      Accepts (do
        match ← attempt (throughLoop nested keyword.position) with
        | some loop => return loop
        | none => countingLoop nested keyword.position) list place (·.erase = s) rest) :
    (drift nested).Accepts list cursor (·.erase = s) rest := by
  unfold drift
  refine .bind (accepts_expect _ seen keywordKind) ?_
  rintro _ second rfl afterKeyword
  refine .bind (accepts_expect _ afterKeyword openKind) ?_
  rintro _ third rfl afterOpening
  obtain ⟨here, _, _⟩ := TokenList.token_of_visible afterOpening
  rw [accepts_check_bind, here, (declarator_iff.mp binds).1]
  exact loop afterOpening

/-! ## Statements -/

omit accepts in
theorem returns_complete {keyword semicolon : Token} {input rest : List Token} {value : Expr}
    (seen : list.visible cursor = keyword :: input)
    (keywordKind : keyword.kind = .keyword .returns)
    (reading : Expression input value (semicolon :: rest))
    (kind : semicolon.kind = .symbol .semicolon) :
    returns.Accepts list cursor (·.erase = .returns default value) rest := by
  unfold returns
  refine .bind (accepts_expect _ seen keywordKind) ?_
  rintro _ second rfl afterKeyword
  refine .bind (accepts_expression afterKeyword reading kind .semicolon) ?_
  rintro found third rfl afterValue
  refine .bind (accepts_expect _ afterValue kind) ?_
  rintro _ last rfl behind
  exact accepts_pure rfl behind

omit accepts in
theorem expressionStatement_complete {semicolon : Token} {input rest : List Token} {value : Expr}
    (seen : list.visible cursor = input) (reading : Expression input value (semicolon :: rest))
    (kind : semicolon.kind = .symbol .semicolon) :
    expressionStatement.Accepts list cursor (·.erase = .expression value) rest := by
  unfold expressionStatement
  refine .bind (accepts_expression seen reading kind .semicolon) ?_
  rintro found second rfl afterValue
  refine .bind (accepts_expect _ afterValue kind) ?_
  rintro _ last rfl behind
  exact accepts_pure rfl behind

theorem statementWith_complete {input rest : List Token} {s : Stmt}
    (reading : Statement input s rest) (seen : list.visible cursor = input)
    (noBranch : NoBranch rest) (short : input.length ≤ bound) :
    (statementWith nested).Accepts list cursor (·.erase = s) rest := by
  -- the token that decides is the first one of the reading
  have here : ∀ {token tail}, input = token :: tail → list.token cursor = token := by
    rintro token tail rfl
    exact (TokenList.token_of_visible seen).1
  unfold statementWith
  rw [accepts_current_bind]
  -- by cases on the reading: the first token of each form leads the parser to that form, but an
  -- expression may start as an assignment does, and then that is declined
  cases reading with
  | @declare _ _ semicolon _ declaration semicolonKind =>
    have parsed : Accepts (do
        let statement ← Parse.declaration
        let _ ← expect (.symbol .semicolon) "Expected ';' after variable declaration"
        return statement) list cursor (·.erase = s) rest := by
      refine .bind (declaration_complete declaration seen semicolonKind .semicolon) ?_
      rintro found second rfl afterDeclaration
      refine .bind (accepts_expect _ afterDeclaration semicolonKind) ?_
      rintro _ last rfl behind
      exact accepts_pure rfl behind
    cases declaration with
    | @mk keyword _ _ _ _ _ _ binding _ _ _ =>
      rw [here rfl]
      generalize keyword.kind = kind at binding
      cases binding with
      | constant => exact parsed
      | mutable => exact parsed
  | assign firstKind target equalsKind value semicolonKind assigns =>
    obtain ⟨_, after, given, ⟨found, rfl, same⟩, left⟩ :=
      assignment_complete seen target equalsKind value semicolonKind assigns
    rw [here rfl, firstKind]
    exact .bind ⟨some found, after, gives_attempt_some.mpr given, rfl, left⟩
      (by rintro _ place rfl behind; exact accepts_pure same behind)
  | procedure keywordKind nameKind openKind parameters body =>
    simp only [List.length_cons] at short
    rw [here rfl, keywordKind]
    exact procedure_complete accepts seen (by omega) keywordKind nameKind openKind parameters body
  | returns keywordKind value semicolonKind =>
    rw [here rfl, keywordKind]
    exact returns_complete seen keywordKind value semicolonKind
  | leave keywordKind semicolonKind =>
    rw [here rfl, keywordKind]
    refine .bind (accepts_advance seen) ?_
    rintro _ second rfl afterKeyword
    refine .bind (accepts_expect _ afterKeyword semicolonKind) ?_
    rintro _ last rfl behind
    exact accepts_pure rfl behind
  | proceed keywordKind semicolonKind =>
    rw [here rfl, keywordKind]
    refine .bind (accepts_advance seen) ?_
    rintro _ second rfl afterKeyword
    refine .bind (accepts_expect _ afterKeyword semicolonKind) ?_
    rintro _ last rfl behind
    exact accepts_pure rfl behind
  | incase keywordKind test body others =>
    rw [List.length_cons] at short
    rw [here rfl, keywordKind]
    exact incase_complete accepts seen (by omega) keywordKind test body others noBranch
  | through keywordKind openKind binds nameKind throughKind iterable closeKind body =>
    simp only [List.length_cons] at short
    rw [here rfl, keywordKind]
    refine drift_complete seen keywordKind openKind binds ?_
    intro place seenPlace
    refine .bind (throughLoop_complete accepts _ seenPlace (by omega) binds nameKind throughKind
      iterable closeKind body) ?_
    rintro _ last ⟨found, rfl, same⟩ behind
    exact accepts_pure same behind
  | drift keywordKind openKind init firstKind test secondKind nameKind equalsKind update
      closeKind body =>
    simp only [List.length_cons] at short
    rw [here rfl, keywordKind]
    obtain ⟨binding, tail, constant, binds, rfl⟩ := init.starts
    refine drift_complete seen keywordKind openKind binds ?_
    intro place seenPlace
    refine .bind (throughLoop_declines _ seenPlace init) ?_
    rintro _ again rfl seenAgain
    exact countingLoop_complete accepts _ seenAgain (by omega) init firstKind test secondKind
      nameKind equalsKind update closeKind body
  | expression inner semicolonKind =>
    have parsed := expressionStatement_complete seen inner semicolonKind
    have declined := assignment_declines seen inner semicolonKind
    obtain ⟨token, tail, cons, opens⟩ := inner.opens
    rw [← here cons] at opens
    -- The keywords that start an expression are literals, and those of statements are none.
    have literal : ∀ {word}, (list.token cursor).kind = .keyword word →
        Shape.Literal (.keyword word) := by
      intro word same
      rw [same] at opens
      cases opens with
      | literal holds => exact holds
    split <;> rename_i kind
    · cases literal kind
    · cases literal kind
    · cases literal kind
    · cases literal kind
    · cases literal kind
    · cases literal kind
    · cases literal kind
    · cases literal kind
    · refine .bind declined ?_
      rintro _ again rfl seenAgain
      exact expressionStatement_complete seenAgain inner semicolonKind
    · exact parsed

end

theorem statementUpTo_complete (list : TokenList) (depth : Nat) :
    AcceptsStatements list (statementUpTo depth) depth := by
  -- by induction on the nesting; a nested statement has fewer tokens
  induction depth with
  | zero =>
    intro cursor s rest _ _ short
    omega
  | succ depth ih =>
    intro cursor s rest reading noBranch short
    exact statementWith_complete ih reading rfl noBranch (Nat.le_of_lt_succ short)

/-- Every statement is parsed, if no branch of a conditional follows. -/
theorem statement_complete (list : TokenList) :
    AcceptsStatements list statement (list.tokens.size + 1) := by
  intro cursor s rest reading noBranch short
  unfold statement
  rw [accepts_budget_bind]
  exact statementUpTo_complete list _ reading noBranch short

end Script.Parse
