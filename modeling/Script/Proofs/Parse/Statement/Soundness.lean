import Script.Parse.Statement
import Script.Proofs.Parse.Expression.Soundness

/-!
# What statement parsers accept

Every parser of statements reads a phrase of the grammar: `statement_sound` at the end, one lemma
for each parser before. As with expressions, the parser of nested statements is a parameter.
-/

namespace Script.Parse

open Grammar

variable {list : TokenList} {cursor after : Nat}

/-- A parser reads statements of the grammar. -/
def ReadsStatements (list : TokenList) (nested : Parse Stmt) : Prop :=
  ∀ {cursor after : Nat} {s : Stmt}, nested.Gives list cursor s after →
    Statement (list.visible cursor) s.erase (list.visible after)

/-! ## Blocks -/

section

variable {nested : Parse Stmt} (reads : ReadsStatements list nested)

include reads

theorem statementsUntil_sound {ends : List Kind} :
    ∀ {rounds cursor after : Nat} {body : List Stmt},
      (statementsUntil nested ends rounds).Gives list cursor body after →
      Statements (list.visible cursor) (eraseBlock body) (list.visible after) ∧
        (list.token after).kind ∈ ends := by
  intro rounds
  induction rounds with
  | zero =>
    intro cursor after body given
    exact absurd given gives_outOfBudget
  | succ rounds ih =>
    intro cursor after body given
    unfold statementsUntil at given
    rw [gives_check_bind] at given
    by_cases ended : (list.token cursor).kind ∈ ends
    · rw [if_pos (by simpa using ended)] at given
      obtain ⟨rfl, rfl⟩ := gives_pure.mp given
      exact ⟨.none, ended⟩
    · rw [if_neg (by simpa using ended)] at given
      obtain ⟨first, middle, taken, rest⟩ := gives_bind.mp given
      obtain ⟨others, tail, rfl⟩ := gives_bind_pure.mp rest
      obtain ⟨reading, last⟩ := ih tail
      exact ⟨.cons (reads taken) reading, last⟩

theorem block_sound {what : String} {body : List Stmt}
    (given : (block nested what).Gives list cursor body after) :
    Block (list.visible cursor) (eraseBlock body) (list.visible after) := by
  unfold block at given
  rw [gives_expect_bind (by decide)] at given
  obtain ⟨opening, openKind, openSeen, rest⟩ := given
  rw [gives_budget_bind] at rest
  obtain ⟨body, middle, statements, rest⟩ := gives_bind.mp rest
  obtain ⟨closing, taken, rfl⟩ := gives_bind_pure.mp rest
  obtain ⟨closeKind, closeSeen, _⟩ := (gives_expect (by decide)).mp taken
  obtain ⟨reading, _⟩ := statementsUntil_sound reads statements
  rw [openSeen]
  exact .mk openKind (closeSeen ▸ reading) closeKind

end

/-! ## Declarations and assignments -/

theorem declarator_goesOn {kind : Kind} {constant : Bool} (binding : Declarator kind constant) :
    kind ≠ .endOfInput := by
  cases binding <;> decide

/-- The parser's tests for the keywords of a declaration. -/
theorem declarator_iff {kind : Kind} {constant : Bool} :
    Declarator kind constant ↔ [.keyword .constant, .keyword .mutable].contains kind = true ∧
      decide (kind = .keyword .constant) = constant := by
  constructor
  · intro binding
    cases binding <;> decide
  · rintro ⟨found, rfl⟩
    simp only [List.contains_eq_mem, List.mem_cons, List.not_mem_nil, or_false,
      decide_eq_true_eq] at found
    rcases found with rfl | rfl
    · exact .constant
    · exact .mutable

/-- What is assigned to is a name or a member. -/
theorem assignment_of_assignmentTo? {position : Position} {target value : Expr} {s : Stmt}
    (found : assignmentTo? position target value = some s) :
    Assignment target.erase value.erase s.erase := by
  unfold assignmentTo? at found
  split at found
  · cases found
    exact .name
  · cases found
    exact .member
  · cases found
    exact .computed
  · cases found

section

variable (numerals : ValidNumerals list.tokens.toList)

include numerals

theorem declaration_sound {s : Stmt} {constant : Bool}
    (binding : Declarator (list.token cursor).kind constant)
    (given : declaration.Gives list cursor s after) :
    Declaration (list.visible cursor) s.erase (list.visible after) ∧
      Stops 0 (list.visible after) := by
  have goesOn := declarator_goesOn binding
  unfold declaration at given
  rw [gives_advance_bind goesOn, gives_expect_bind (by decide)] at given
  obtain ⟨name, nameKind, nameSeen, rest⟩ := given
  rw [gives_expect_bind (by decide)] at rest
  obtain ⟨equals, equalsKind, equalsSeen, rest⟩ := rest
  obtain ⟨value, taken, rfl⟩ := gives_bind_pure.mp rest
  obtain ⟨reading, stops⟩ := expression_sound numerals taken
  rw [TokenList.visible_of_kind goesOn, nameSeen, equalsSeen, (declarator_iff.mp binding).2]
  exact ⟨.mk binding nameKind equalsKind reading, stops⟩

theorem assignment_sound {s : Stmt} (first : (list.token cursor).kind = .identifier)
    (given : assignment.Gives list cursor (some s) after) :
    Statement (list.visible cursor) s.erase (list.visible after) := by
  unfold assignment at given
  rw [gives_current_bind] at given
  obtain ⟨target, middle, takenTarget, rest⟩ := gives_bind.mp given
  obtain ⟨found, next, accepted, rest⟩ := gives_bind.mp rest
  cases found with
  | none => cases (gives_pure.mp rest).1
  | some equals =>
    obtain ⟨equalsKind, equalsSeen, _⟩ := (gives_accept_some (by decide)).mp accepted
    obtain ⟨value, last, takenValue, rest⟩ := gives_bind.mp rest
    rw [gives_expect_bind (by decide)] at rest
    obtain ⟨semicolon, semicolonKind, semicolonSeen, rest⟩ := rest
    split at rest <;> rename_i found
    · obtain ⟨same, rfl⟩ := gives_pure.mp rest
      cases same
      have goesOn : (list.token cursor).kind ≠ .endOfInput := by rw [first]; decide
      have readTarget := (expression_sound numerals takenTarget).1
      have readValue := (expression_sound numerals takenValue).1
      rw [TokenList.visible_of_kind goesOn] at readTarget ⊢
      exact .assign first (equalsSeen ▸ readTarget) equalsKind (semicolonSeen ▸ readValue)
        semicolonKind (assignment_of_assignmentTo? found)
    · exact absurd rest gives_throw

end

/-! ## Procedures -/

/-- The parameters read are new and go behind those seen before. -/
theorem parametersFrom_sound {procedure : String} :
    ∀ {rounds cursor after : Nat} {seen names : List String},
      (parametersFrom procedure seen rounds).Gives list cursor names after → seen.Nodup →
      ∃ new, names = seen ++ new ∧ names.Nodup ∧
        Names (list.visible cursor) new (list.visible after) := by
  intro rounds
  induction rounds with
  | zero =>
    intro cursor after seen names given
    exact absurd given gives_outOfBudget
  | succ rounds ih =>
    intro cursor after seen names given distinct
    unfold parametersFrom at given
    rw [gives_expect_bind (by decide)] at given
    obtain ⟨parameter, kind, first, rest⟩ := given
    by_cases repeated : parameter.text ∈ seen
    · rw [if_pos (by simpa using repeated)] at rest
      exact absurd rest gives_throw
    · rw [if_neg (by simpa using repeated)] at rest
      have stillDistinct : (seen ++ [parameter.text]).Nodup := by
        rw [List.nodup_append]
        refine ⟨distinct, by simp, ?_⟩
        intro name member other single same
        rw [same, List.mem_singleton.mp single] at member
        exact repeated member
      obtain ⟨found, next, accepted, rest⟩ := gives_bind.mp rest
      rw [first]
      cases found with
      | some comma =>
        obtain ⟨commaKind, commaSeen, _⟩ := (gives_accept_some (by decide)).mp accepted
        obtain ⟨new, rfl, noRepeats, reading⟩ := ih rest stillDistinct
        refine ⟨parameter.text :: new, by rw [List.append_assoc]; rfl, noRepeats, ?_⟩
        rw [commaSeen]
        exact .more kind commaKind reading
      | none =>
        obtain ⟨_, rfl⟩ := (gives_accept_none (by decide)).mp accepted
        obtain ⟨rfl, rfl⟩ := gives_pure.mp rest
        exact ⟨[parameter.text], rfl, stillDistinct, .last kind⟩

section

variable {nested : Parse Stmt} (reads : ReadsStatements list nested)

include reads

theorem procedure_sound {s : Stmt} (given : (procedure nested).Gives list cursor s after) :
    Statement (list.visible cursor) s.erase (list.visible after) := by
  unfold procedure at given
  rw [gives_expect_bind (by decide)] at given
  obtain ⟨keyword, keywordKind, keywordSeen, rest⟩ := given
  rw [gives_expect_bind (by decide)] at rest
  obtain ⟨name, nameKind, nameSeen, rest⟩ := rest
  rw [gives_expect_bind (by decide)] at rest
  obtain ⟨opening, openKind, openSeen, rest⟩ := rest
  rw [keywordSeen, nameSeen, openSeen]
  rw [gives_check_bind] at rest
  by_cases empty : (list.token (cursor + 1 + 1 + 1)).kind = .symbol .rightParen
  · rw [if_pos (by simp [empty])] at rest
    obtain ⟨parameters, middle, none, rest⟩ := gives_bind.mp rest
    obtain ⟨rfl, rfl⟩ := gives_pure.mp none
    rw [gives_expect_bind (by decide)] at rest
    obtain ⟨closing, closeKind, closeSeen, rest⟩ := rest
    obtain ⟨body, takenBody, rfl⟩ := gives_bind_pure.mp rest
    rw [closeSeen]
    exact .procedure keywordKind nameKind openKind (.none closeKind) (block_sound reads takenBody)
  · rw [if_neg (by simp [empty]), gives_budget_bind] at rest
    obtain ⟨parameters, middle, some, rest⟩ := gives_bind.mp rest
    obtain ⟨new, rfl, distinct, reading⟩ := parametersFrom_sound some List.nodup_nil
    rw [gives_expect_bind (by decide)] at rest
    obtain ⟨closing, closeKind, closeSeen, rest⟩ := rest
    obtain ⟨body, takenBody, rfl⟩ := gives_bind_pure.mp rest
    rw [closeSeen] at reading
    exact .procedure keywordKind nameKind openKind (.some reading distinct closeKind)
      (block_sound reads takenBody)

end

section

variable (numerals : ValidNumerals list.tokens.toList)

include numerals

theorem returns_sound {s : Stmt} (given : returns.Gives list cursor s after) :
    Statement (list.visible cursor) s.erase (list.visible after) := by
  unfold returns at given
  rw [gives_expect_bind (by decide)] at given
  obtain ⟨keyword, keywordKind, keywordSeen, rest⟩ := given
  obtain ⟨value, middle, takenValue, rest⟩ := gives_bind.mp rest
  obtain ⟨semicolon, taken, rfl⟩ := gives_bind_pure.mp rest
  obtain ⟨semicolonKind, semicolonSeen, _⟩ := (gives_expect (by decide)).mp taken
  rw [keywordSeen]
  exact .returns keywordKind (semicolonSeen ▸ (expression_sound numerals takenValue).1)
    semicolonKind

theorem expressionStatement_sound {s : Stmt}
    (given : expressionStatement.Gives list cursor s after) :
    Statement (list.visible cursor) s.erase (list.visible after) := by
  unfold expressionStatement at given
  obtain ⟨value, middle, takenValue, rest⟩ := gives_bind.mp given
  obtain ⟨semicolon, taken, rfl⟩ := gives_bind_pure.mp rest
  obtain ⟨semicolonKind, semicolonSeen, _⟩ := (gives_expect (by decide)).mp taken
  exact .expression (semicolonSeen ▸ (expression_sound numerals takenValue).1) semicolonKind

/-! ## Conditionals -/

theorem condition_sound {keyword : String} {e : Expr}
    (given : (condition keyword).Gives list cursor e after) :
    Condition (list.visible cursor) e.erase (list.visible after) := by
  unfold condition at given
  rw [gives_expect_bind (by decide)] at given
  obtain ⟨opening, openKind, openSeen, rest⟩ := given
  obtain ⟨value, middle, takenValue, rest⟩ := gives_bind.mp rest
  obtain ⟨closing, taken, rfl⟩ := gives_bind_pure.mp rest
  obtain ⟨closeKind, closeSeen, _⟩ := (gives_expect (by decide)).mp taken
  rw [openSeen]
  exact .mk openKind (closeSeen ▸ (expression_sound numerals takenValue).1) closeKind

variable {nested : Parse Stmt} (reads : ReadsStatements list nested)

include reads

theorem fallback_sound : ∀ {rounds cursor after : Nat} {otherwise : Fallback},
    (fallback nested rounds).Gives list cursor otherwise after →
    Otherwise (list.visible cursor) otherwise.erase (list.visible after) := by
  intro rounds
  induction rounds with
  | zero =>
    intro cursor after otherwise given
    exact absurd given gives_outOfBudget
  | succ rounds ih =>
    intro cursor after otherwise given
    unfold fallback at given
    obtain ⟨found, middle, accepted, rest⟩ := gives_bind.mp given
    cases found with
    | some keyword =>
      obtain ⟨kind, seen, _⟩ := (gives_accept_some (by decide)).mp accepted
      obtain ⟨test, second, takenTest, rest⟩ := gives_bind.mp rest
      obtain ⟨body, third, takenBody, rest⟩ := gives_bind.mp rest
      obtain ⟨others, tail, rfl⟩ := gives_bind_pure.mp rest
      rw [seen]
      exact .elif kind (condition_sound numerals takenTest) (block_sound reads takenBody)
        (ih tail)
    | none =>
      obtain ⟨_, rfl⟩ := (gives_accept_none (by decide)).mp accepted
      obtain ⟨other, second, otherAccepted, finish⟩ := gives_bind.mp rest
      cases other with
      | some keyword =>
        obtain ⟨kind, seen, _⟩ := (gives_accept_some (by decide)).mp otherAccepted
        obtain ⟨body, takenBody, rfl⟩ := gives_bind_pure.mp finish
        rw [seen]
        exact .block kind (block_sound reads takenBody)
      | none =>
        obtain ⟨_, rfl⟩ := (gives_accept_none (by decide)).mp otherAccepted
        obtain ⟨rfl, rfl⟩ := gives_pure.mp finish
        exact .nothing

theorem incase_sound {s : Stmt} (given : (incase nested).Gives list cursor s after) :
    Statement (list.visible cursor) s.erase (list.visible after) := by
  unfold incase at given
  rw [gives_expect_bind (by decide)] at given
  obtain ⟨keyword, kind, seen, rest⟩ := given
  obtain ⟨test, second, takenTest, rest⟩ := gives_bind.mp rest
  obtain ⟨body, third, takenBody, rest⟩ := gives_bind.mp rest
  rw [gives_budget_bind] at rest
  obtain ⟨others, tail, rfl⟩ := gives_bind_pure.mp rest
  rw [seen]
  exact .incase kind (condition_sound numerals takenTest) (block_sound reads takenBody)
    (fallback_sound numerals reads tail)

/-! ## Loops -/

/-- A loop through an array, from behind its opening parenthesis. -/
theorem throughLoop_sound {position : Position} {s : Stmt} {constant : Bool}
    (binding : Declarator (list.token cursor).kind constant)
    (given : (throughLoop nested position).Gives list cursor (some s) after)
    {keyword opening : Token} (keywordKind : keyword.kind = .keyword .drift)
    (openKind : opening.kind = .symbol .leftParen) :
    Statement (keyword :: opening :: list.visible cursor) s.erase (list.visible after) := by
  have goesOn := declarator_goesOn binding
  unfold throughLoop at given
  rw [gives_advance_bind goesOn] at given
  obtain ⟨found, second, accepted, rest⟩ := gives_bind.mp given
  cases found with
  | none => cases (gives_pure.mp rest).1
  | some name =>
    obtain ⟨nameKind, nameSeen, _⟩ := (gives_accept_some (by decide)).mp accepted
    obtain ⟨word, third, wordAccepted, rest⟩ := gives_bind.mp rest
    cases word with
    | none => cases (gives_pure.mp rest).1
    | some through =>
      obtain ⟨throughKind, throughSeen, _⟩ := (gives_accept_some (by decide)).mp wordAccepted
      obtain ⟨iterable, fourth, takenIterable, rest⟩ := gives_bind.mp rest
      rw [gives_expect_bind (by decide)] at rest
      obtain ⟨closing, closeKind, closeSeen, rest⟩ := rest
      obtain ⟨body, takenBody, same⟩ := gives_bind_pure.mp rest
      cases same
      rw [TokenList.visible_of_kind goesOn, nameSeen, throughSeen,
        (declarator_iff.mp binding).2]
      exact .through keywordKind openKind binding nameKind throughKind
        (closeSeen ▸ (expression_sound numerals takenIterable).1) closeKind
        (block_sound reads takenBody)

/-- A counting loop, from behind its opening parenthesis. -/
theorem countingLoop_sound {position : Position} {s : Stmt} {constant : Bool}
    (binding : Declarator (list.token cursor).kind constant)
    (given : (countingLoop nested position).Gives list cursor s after)
    {keyword opening : Token} (keywordKind : keyword.kind = .keyword .drift)
    (openKind : opening.kind = .symbol .leftParen) :
    Statement (keyword :: opening :: list.visible cursor) s.erase (list.visible after) := by
  unfold countingLoop at given
  obtain ⟨init, second, takenInit, rest⟩ := gives_bind.mp given
  rw [gives_expect_bind (by decide)] at rest
  obtain ⟨first, firstKind, firstSeen, rest⟩ := rest
  obtain ⟨test, third, takenTest, rest⟩ := gives_bind.mp rest
  rw [gives_expect_bind (by decide)] at rest
  obtain ⟨semicolon, semicolonKind, semicolonSeen, rest⟩ := rest
  rw [gives_expect_bind (by decide)] at rest
  obtain ⟨target, targetKind, targetSeen, rest⟩ := rest
  rw [gives_expect_bind (by decide)] at rest
  obtain ⟨equals, equalsKind, equalsSeen, rest⟩ := rest
  obtain ⟨update, fourth, takenUpdate, rest⟩ := gives_bind.mp rest
  rw [gives_expect_bind (by decide)] at rest
  obtain ⟨closing, closeKind, closeSeen, rest⟩ := rest
  obtain ⟨body, takenBody, rfl⟩ := gives_bind_pure.mp rest
  have readInit := (declaration_sound numerals binding takenInit).1
  have readTest := (expression_sound numerals takenTest).1
  have readUpdate := (expression_sound numerals takenUpdate).1
  rw [firstSeen] at readInit
  rw [semicolonSeen, targetSeen, equalsSeen] at readTest
  rw [closeSeen] at readUpdate
  exact .drift keywordKind openKind readInit firstKind readTest semicolonKind targetKind
    equalsKind readUpdate closeKind (block_sound reads takenBody)

theorem drift_sound {s : Stmt} (given : (drift nested).Gives list cursor s after) :
    Statement (list.visible cursor) s.erase (list.visible after) := by
  unfold drift at given
  rw [gives_expect_bind (by decide)] at given
  obtain ⟨keyword, keywordKind, keywordSeen, rest⟩ := given
  rw [gives_expect_bind (by decide)] at rest
  obtain ⟨opening, openKind, openSeen, rest⟩ := rest
  rw [keywordSeen, openSeen]
  rw [gives_check_bind] at rest
  split at rest <;> rename_i test
  · rw [gives_current_bind] at rest
    exact absurd rest gives_throw
  · have binding := declarator_iff.mpr ⟨by rwa [Bool.not_eq_true', Bool.not_eq_false] at test, rfl⟩
    obtain ⟨found, middle, attempted, rest⟩ := gives_bind.mp rest
    cases found with
    | some loop =>
      obtain ⟨rfl, rfl⟩ := gives_pure.mp rest
      exact throughLoop_sound numerals reads binding (gives_attempt_some.mp attempted)
        keywordKind openKind
    | none =>
      obtain ⟨rfl, _⟩ := gives_attempt_none.mp attempted
      exact countingLoop_sound numerals reads binding rest keywordKind openKind

/-! ## Statements -/

theorem statementWith_sound {s : Stmt} (given : (statementWith nested).Gives list cursor s after) :
    Statement (list.visible cursor) s.erase (list.visible after) := by
  -- Declarations of either kind.
  have declares : ∀ {constant}, Declarator (list.token cursor).kind constant →
      Gives (declaration >>= fun statement =>
        expect (.symbol .semicolon) "Expected ';' after variable declaration" >>= fun _ =>
          pure statement) list cursor s after →
      Statement (list.visible cursor) s.erase (list.visible after) := by
    intro constant binding given
    obtain ⟨declared, middle, taken, rest⟩ := gives_bind.mp given
    obtain ⟨semicolon, ended, rfl⟩ := gives_bind_pure.mp rest
    obtain ⟨kind, seen, _⟩ := (gives_expect (by decide)).mp ended
    exact .declare (seen ▸ (declaration_sound numerals binding taken).1) kind
  unfold statementWith at given
  rw [gives_current_bind] at given
  split at given <;> rename_i kind
  · exact declares (by rw [kind]; exact .constant) given
  · exact declares (by rw [kind]; exact .mutable) given
  · exact procedure_sound reads given
  · exact returns_sound numerals given
  · rw [gives_advance_bind (by rw [kind]; decide)] at given
    obtain ⟨semicolon, taken, rfl⟩ := gives_bind_pure.mp given
    obtain ⟨semicolonKind, seen, _⟩ := (gives_expect (by decide)).mp taken
    rw [TokenList.visible_of_kind (by rw [kind]; decide), seen]
    exact .leave kind semicolonKind
  · rw [gives_advance_bind (by rw [kind]; decide)] at given
    obtain ⟨semicolon, taken, rfl⟩ := gives_bind_pure.mp given
    obtain ⟨semicolonKind, seen, _⟩ := (gives_expect (by decide)).mp taken
    rw [TokenList.visible_of_kind (by rw [kind]; decide), seen]
    exact .proceed kind semicolonKind
  · exact incase_sound numerals reads given
  · exact drift_sound numerals reads given
  · obtain ⟨found, middle, attempted, rest⟩ := gives_bind.mp given
    cases found with
    | some assigned =>
      obtain ⟨rfl, rfl⟩ := gives_pure.mp rest
      exact assignment_sound numerals kind (gives_attempt_some.mp attempted)
    | none =>
      obtain ⟨rfl, _⟩ := gives_attempt_none.mp attempted
      exact expressionStatement_sound numerals rest
  · exact expressionStatement_sound numerals given

end

theorem statementUpTo_sound (numerals : ValidNumerals list.tokens.toList) (depth : Nat) :
    ReadsStatements list (statementUpTo depth) := by
  induction depth with
  | zero =>
    intro cursor after s given
    exact absurd given gives_outOfBudget
  | succ depth ih =>
    intro cursor after s given
    exact statementWith_sound numerals ih given

/-- What is parsed as a statement is one. -/
theorem statement_sound (numerals : ValidNumerals list.tokens.toList) :
    ReadsStatements list statement := by
  intro cursor after s given
  unfold statement at given
  rw [gives_budget_bind] at given
  exact statementUpTo_sound numerals _ given

end Script.Parse
