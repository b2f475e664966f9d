import Script.Proofs.Grammar.Shape

/-!
# Where statements start and end

A statement takes at least one token (`Statement.shorter`), and its first token tells it apart
from what may follow a block: from a closing brace, and from the keywords that go on with a
conditional (`Statement.starts`). So a conditional takes all its branches.
-/

namespace Script.Grammar

/-! ## Progress -/

/-- A declaration takes tokens: at least its keyword, its name and its equals sign. -/
theorem Declaration.shorter {input rest : List Token} {s : Stmt}
    (declaration : Declaration input s rest) : rest.length < input.length := by
  cases declaration with
  | mk _ _ _ value =>
    have less := value.shorter
    simp only [List.length_cons]
    omega

theorem Names.shorter {input rest : List Token} {names : List String}
    (reading : Names input names rest) : rest.length < input.length := by
  induction reading with
  | last _ => exact Nat.lt_succ_self _
  | more _ _ _ ih => exact Nat.lt_succ_of_lt (Nat.lt_succ_of_lt ih)

theorem Parameters.shorter {input rest : List Token} {names : List String}
    (parameters : Parameters input names rest) : rest.length < input.length := by
  cases parameters with
  | none _ => exact Nat.lt_succ_self _
  | some names _ _ => exact Nat.lt_of_succ_lt names.shorter

/-- A condition takes its parentheses and the expression in them. -/
theorem Condition.shorter {input rest : List Token} {e : Expr}
    (condition : Condition input e rest) : rest.length < input.length := by
  cases condition with
  | mk _ inner _ =>
    have less := inner.shorter
    simp only [List.length_cons] at less ⊢
    omega

mutual

/-- A statement takes at least one token. -/
theorem Statement.shorter {input rest : List Token} {s : Stmt} :
    Statement input s rest → rest.length < input.length
  -- by recursion on the reading: every statement has a token of its own, a keyword, a semicolon or
  -- one of its expression
  | .declare declaration _ => Nat.lt_of_succ_lt declaration.shorter
  | .assign _ target _ value _ _ => by
    have first := target.shorter
    have second := value.shorter
    simp only [List.length_cons] at first second ⊢
    omega
  | .procedure _ _ _ parameters body => by
    have first := parameters.shorter
    have second := body.shorter
    simp only [List.length_cons]
    omega
  | .returns _ value _ => by
    have less := value.shorter
    simp only [List.length_cons] at less ⊢
    omega
  | .leave _ _ => Nat.lt_succ_of_lt (Nat.lt_succ_self _)
  | .proceed _ _ => Nat.lt_succ_of_lt (Nat.lt_succ_self _)
  | .incase _ condition body fallback => by
    have first := condition.shorter
    have second := body.shorter
    have third := fallback.shorter
    simp only [List.length_cons]
    omega
  | .through _ _ _ _ _ iterable _ body => by
    have first := iterable.shorter
    have second := body.shorter
    simp only [List.length_cons] at first ⊢
    omega
  | .drift _ _ init _ condition _ _ _ update _ body => by
    have first := init.shorter
    have second := condition.shorter
    have third := update.shorter
    have fourth := body.shorter
    simp only [List.length_cons] at first second third ⊢
    omega
  | .expression inner _ => Nat.lt_of_succ_lt inner.shorter

theorem Otherwise.shorter {input rest : List Token} {fallback : Fallback} :
    Otherwise input fallback rest → rest.length ≤ input.length
  | .nothing => Nat.le_refl _
  | .block _ body => Nat.le_of_lt (Nat.lt_succ_of_lt body.shorter)
  | .elif _ condition body fallback => by
    have first := condition.shorter
    have second := body.shorter
    have third := fallback.shorter
    simp only [List.length_cons]
    omega

theorem Block.shorter {input rest : List Token} {body : List Stmt} :
    Block input body rest → rest.length < input.length
  | .mk _ statements _ => Nat.lt_succ_of_lt (Nat.lt_of_succ_le statements.shorter)

/-- There may be no statements at all, so they need take no token. -/
theorem Statements.shorter {input rest : List Token} {body : List Stmt} :
    Statements input body rest → rest.length ≤ input.length
  | .none => Nat.le_refl _
  | .cons first others => Nat.le_trans others.shorter (Nat.le_of_lt first.shorter)

end

/-! ## First tokens -/

/-- The first token of a declaration says whether it declares a constant. -/
theorem Declaration.starts {input rest : List Token} {s : Stmt}
    (declaration : Declaration input s rest) :
    ∃ keyword tail constant, Declarator keyword.kind constant ∧ input = keyword :: tail := by
  cases declaration with
  | mk binding _ _ _ => exact ⟨_, _, _, binding, rfl⟩

/-- A kind of token that no statement starts with, but that may follow one inside a block. -/
inductive Follows : Kind → Prop
  | brace : Follows (.symbol .rightBrace)
  | elif : Follows (.keyword .elif)
  | otherwise : Follows (.keyword .otherwise)

/-- What follows a statement inside a block opens no expression. -/
theorem Follows.not_opens {kind : Kind} (follows : Follows kind) : ¬ Shape.Opens kind := by
  intro opens
  cases follows with
  | brace => exact Shape.Closing.brace.not_opens opens
  | elif => cases opens with | literal holds => cases holds
  | otherwise => cases opens with | literal holds => cases holds

/-- No statement starts with a token that may follow one inside a block. -/
theorem Statement.starts {input rest : List Token} {s : Stmt} (statement : Statement input s rest) :
    Shape.StartsWith (fun kind => ¬ Follows kind) input := by
  -- a statement that starts with a keyword starts with one of its own
  have keyword : ∀ {token : Token} {word : Keyword} {tail : List Token},
      token.kind = .keyword word → word ≠ .elif → word ≠ .otherwise →
      Shape.StartsWith (fun kind => ¬ Follows kind) (token :: tail) := by
    intro token word tail kind noElif noElse
    refine ⟨token, tail, rfl, ?_⟩
    rw [kind]
    intro follows
    cases follows with
    | elif => exact noElif rfl
    | otherwise => exact noElse rfl
  -- all others start as an expression does
  have expression : ∀ {n input e rest}, Level Longest n input e rest →
      Shape.StartsWith (fun kind => ¬ Follows kind) input := by
    intro n input e rest reading
    exact reading.opens.mono fun kind opens follows => follows.not_opens opens
  cases statement with
  | declare declaration _ =>
    obtain ⟨token, tail, constant, binding, rfl⟩ := declaration.starts
    generalize same : token.kind = kind at binding
    cases binding with
    | constant => exact keyword same (by decide) (by decide)
    | mutable => exact keyword same (by decide) (by decide)
  | assign _ target _ _ _ _ => exact expression target
  | procedure kind _ _ _ _ => exact keyword kind (by decide) (by decide)
  | returns kind _ _ => exact keyword kind (by decide) (by decide)
  | leave kind _ => exact keyword kind (by decide) (by decide)
  | proceed kind _ => exact keyword kind (by decide) (by decide)
  | incase kind _ _ _ => exact keyword kind (by decide) (by decide)
  | through kind _ _ _ _ _ _ _ => exact keyword kind (by decide) (by decide)
  | drift kind _ _ _ _ _ _ _ _ _ _ => exact keyword kind (by decide) (by decide)
  | expression inner _ => exact expression inner

/-- No branch of a conditional starts at a rest. -/
def NoBranch (rest : List Token) : Prop :=
  ∀ token tail, rest = token :: tail →
    token.kind ≠ .keyword .elif ∧ token.kind ≠ .keyword .otherwise

theorem NoBranch.nil : NoBranch [] := by
  intro token tail cons
  cases cons

/-- Behind the last statement of a block stands its closing brace, which starts no branch. -/
theorem NoBranch.brace {token : Token} (kind : token.kind = .symbol .rightBrace)
    (tail : List Token) : NoBranch (token :: tail) := by
  intro head others cons
  cases cons
  rw [kind]
  exact ⟨by decide, by decide⟩

/-- No branch of a conditional starts where statements do, unless one starts behind them: the first
statement would have to start with its keyword. -/
theorem Statements.noBranch {input rest : List Token} {body : List Stmt}
    (statements : Statements input body rest) (last : NoBranch rest) : NoBranch input := by
  cases statements with
  | none => exact last
  | cons first _ =>
    obtain ⟨token, tail, cons, starts⟩ := first.starts
    intro head others same
    cases cons.symm.trans same
    constructor
    · intro kind
      exact starts (kind ▸ .elif)
    · intro kind
      exact starts (kind ▸ .otherwise)

end Script.Grammar
