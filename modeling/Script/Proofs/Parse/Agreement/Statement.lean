import Script.Proofs.Parse.Agreement.Expression

/-!
# Statements and programs in two token lists

Every parser of statements does the same in two lists that look alike, as every parser of
expressions does. Where a parser is declined and its tokens are read once more, both lists go back
to the same token.

* `agrees_statement`, `agrees_program`: a statement and a program, read anywhere in a scene.
-/

namespace Script.Parse.Scene

variable {shift : Position → Position} {list other : TokenList} {scene : Scene shift list other}
  {bound : Nat} {nested twin : Parse Stmt}

/-- Nested statements are read alike wherever fewer tokens are in sight than a bound. -/
def RunsBelow (shift : Position → Position) (list other : TokenList) (bound : Nat)
    (nested twin : Parse Stmt) : Prop :=
  ∀ scene : Scene shift list other, scene.room < bound →
    scene.Agrees (.statements shift) 1 nested twin

/-! ## Blocks -/

/-- Statements up to one of some kinds of token, which look alike in both lists. The rounds only
have to be more than the tokens in sight. -/
theorem agrees_statementsUntil (runs : RunsBelow shift list other bound nested twin)
    (ends : List Kind) {rounds more : Nat} (enough : scene.room < rounds)
    (enoughOther : scene.room < more) (short : scene.room < bound) :
    scene.Agrees (Motion.statements shift).list 0 (statementsUntil nested ends rounds)
      (statementsUntil twin ends more) := by
  revert short
  refine rounds_of_room (P := fun rounds more scene => scene.room < bound →
    scene.Agrees (Motion.statements shift).list 0 (statementsUntil nested ends rounds)
      (statementsUntil twin ends more)) (fun rounds more scene ih short => ?_) enough enoughOther
  refine agrees_check_bind ?_
  cases ends.contains scene.token.kind with
  | true => exact agrees_pure rfl trivial
  | false =>
    refine agrees_second (runs scene short) fun first later room _ => ?_
    refine agrees_second (ih later room (by omega)) fun others _ _ _ => ?_
    exact agrees_pure rfl trivial

/-- A block reads its braces itself, so its statements have one token less in sight. -/
theorem agrees_block (runs : RunsBelow shift list other bound nested twin)
    (short : scene.room < bound + 1) (what : String) :
    scene.Agrees (Motion.statements shift).list 1 (block nested what) (block twin what) := by
  refine agrees_first (agrees_expect (by decide) _) fun _ later room _ => ?_
  refine agrees_budget_bind fun rounds more enough enoughOther => ?_
  refine agrees_second (agrees_statementsUntil runs _ enough enoughOther (by omega))
    fun body _ _ _ => ?_
  refine agrees_second (agrees_expect (by decide) _) fun _ _ _ _ => ?_
  exact agrees_pure rfl trivial

/-! ## Declarations and assignments -/

theorem agrees_declaration : scene.Agrees (.statements shift) 1 declaration declaration := by
  -- what comes behind the keyword, which is taken whatever it is
  have rest : ∀ (keyword : Token) (later : Scene shift list other),
      later.Agrees (.statements shift) 1
        (do
          let name ← expect .identifier "Expected variable name"
          let _ ← expect (.symbol .equals) "Expected '=' after variable name"
          let value ← expression
          return .declare keyword.position name.text
            (decide (keyword.kind = .keyword .constant)) value)
        (do
          let name ← expect .identifier "Expected variable name"
          let _ ← expect (.symbol .equals) "Expected '=' after variable name"
          let value ← expression
          return .declare (shift keyword.position) name.text
            (decide (keyword.kind = .keyword .constant)) value) := by
    intro keyword later
    refine agrees_first (agrees_expect (by decide) _) fun name _ _ _ => ?_
    refine agrees_second (agrees_expect (by decide) _) fun _ _ _ _ => ?_
    refine agrees_second agrees_expression fun value _ _ _ => ?_
    exact agrees_pure rfl trivial
  by_cases ended : scene.token.kind = .endOfInput
  · exact agrees_second (agrees_advance_end ended) fun keyword later _ _ => rest keyword later
  · exact agrees_second (agrees_advance ended) fun keyword later _ _ => rest keyword later

/-- Which target can be assigned to does not depend on where it stands. -/
theorem assignmentTo?_map_relocate (shift : Position → Position) (position : Position)
    (target value : Expr) :
    assignmentTo? (shift position) (target.relocate shift) (value.relocate shift) =
      (assignmentTo? position target value).map (Stmt.relocate shift) := by
  cases target <;> rfl

/-- An assignment or, in both lists, none: then the tokens are read once more as an expression. -/
theorem agrees_assignment :
    scene.Agrees (Motion.statements shift).option 1 assignment assignment := by
  refine agrees_current_bind ?_
  generalize scene.token = start
  refine agrees_first agrees_expression fun target later _ _ => ?_
  refine agrees_accept_bind (by decide) (fun equals last _ => ?_) ?_
  · refine agrees_second agrees_expression fun value _ _ _ => ?_
    refine agrees_second (agrees_expect (by decide) _) fun _ _ _ _ => ?_
    have moved := assignmentTo?_map_relocate shift start.position target value
    dsimp only [Motion.expressions, Token.relocate]
    rw [moved]
    cases assignmentTo? start.position target value with
    | some s => exact agrees_pure rfl fun _ _ => trivial
    | none => exact agrees_throw .invalidTarget
  · exact agrees_pure rfl fun _ _ => trivial

theorem agrees_expressionStatement :
    scene.Agrees (.statements shift) 1 expressionStatement expressionStatement := by
  refine agrees_first agrees_expression fun value _ _ _ => ?_
  refine agrees_second (agrees_expect (by decide) _) fun _ _ _ _ => ?_
  exact agrees_pure rfl trivial

/-! ## Procedures -/

theorem agrees_parametersFrom {procedure : String} {rounds more : Nat}
    (enough : scene.room < rounds) (enoughOther : scene.room < more) (seen : List String) :
    scene.Agrees Motion.still 1 (parametersFrom procedure seen rounds)
      (parametersFrom procedure seen more) := by
  revert seen
  refine rounds_of_room (P := fun rounds more scene => ∀ seen : List String,
    scene.Agrees Motion.still 1 (parametersFrom procedure seen rounds)
      (parametersFrom procedure seen more)) (fun rounds more scene ih seen => ?_) enough enoughOther
  refine agrees_first (agrees_expect (by decide) _) fun parameter later room _ => ?_
  refine agrees_if ?_ ?_
  · exact agrees_throw .duplicateParameter
  · refine agrees_accept_bind (by decide) (fun comma last roomBehind => ?_) ?_
    · exact (ih last (by omega) _).weaken (Nat.zero_le _)
    · exact agrees_pure rfl trivial

theorem agrees_procedure (runs : RunsBelow shift list other bound nested twin)
    (short : scene.room < bound + 1) :
    scene.Agrees (.statements shift) 1 (procedure nested) (procedure twin) := by
  refine agrees_first (agrees_expect (by decide) _) fun keyword later room _ => ?_
  refine agrees_second (agrees_expect (by decide) _) fun name afterName roomName _ => ?_
  refine agrees_second (agrees_expect (by decide) _) fun _ opened roomOpened _ => ?_
  -- what comes behind the parameters, with or without any
  have rest : ∀ (parameters : List String) (behind : Scene shift list other),
      behind.room < bound + 1 → behind.Agrees (.statements shift) 0
        (do
          let _ ← expect (.symbol .rightParen) "Expected ')' after parameters"
          let body ← block nested "procedure body"
          return .procedure keyword.position name.text parameters body)
        (do
          let _ ← expect (.symbol .rightParen) "Expected ')' after parameters"
          let body ← block twin "procedure body"
          return .procedure (shift keyword.position) name.text parameters body) := by
    intro parameters behind shortBehind
    refine agrees_second (agrees_expect (by decide) _) fun _ closed roomClosed _ => ?_
    refine agrees_second (agrees_block runs (by omega) _) fun body _ _ _ => ?_
    refine agrees_pure ?_ trivial
    exact congrArg (Stmt.procedure _ _ _) (relocateBlock_eq_map ..).symm
  refine agrees_check_bind ?_
  cases [Kind.symbol .rightParen].contains opened.token.kind with
  | true => exact rest [] opened (by omega)
  | false =>
    refine agrees_budget_bind fun rounds more enough enoughOther => ?_
    refine agrees_second (agrees_parametersFrom enough enoughOther [])
      fun parameters behind _ _ => ?_
    exact rest parameters behind (by omega)

theorem agrees_returns : scene.Agrees (.statements shift) 1 returns returns := by
  refine agrees_first (agrees_expect (by decide) _) fun keyword _ _ _ => ?_
  refine agrees_second agrees_expression fun value _ _ _ => ?_
  refine agrees_second (agrees_expect (by decide) _) fun _ _ _ _ => ?_
  exact agrees_pure rfl trivial

/-! ## Conditionals -/

theorem agrees_condition (keyword : String) :
    scene.Agrees (.expressions shift) 1 (condition keyword) (condition keyword) := by
  refine agrees_first (agrees_expect (by decide) _) fun _ _ _ _ => ?_
  refine agrees_second agrees_expression fun value _ _ placed => ?_
  refine agrees_second (agrees_expect (by decide) _) fun _ _ _ _ => ?_
  exact agrees_pure rfl placed

theorem agrees_fallback (runs : RunsBelow shift list other bound nested twin) {rounds more : Nat}
    (enough : scene.room < rounds) (enoughOther : scene.room < more)
    (short : scene.room < bound + 1) :
    scene.Agrees (.fallbacks shift) 0 (fallback nested rounds) (fallback twin more) := by
  revert short
  refine rounds_of_room (P := fun rounds more scene => scene.room < bound + 1 →
    scene.Agrees (.fallbacks shift) 0 (fallback nested rounds) (fallback twin more))
    (fun rounds more scene ih short => ?_) enough enoughOther
  refine agrees_accept_bind (by decide) (fun keyword later room => ?_) ?_
  · refine agrees_second (agrees_condition "elif") fun test tested roomTested _ => ?_
    refine agrees_second (agrees_block runs (by omega) _) fun body behind roomBehind _ => ?_
    refine agrees_second (ih behind (by omega) (by omega)) fun rest _ _ _ => ?_
    refine agrees_pure ?_ trivial
    exact congrArg (Fallback.elif _ _ · _) (relocateBlock_eq_map ..).symm
  · refine agrees_accept_bind (by decide) (fun keyword later room => ?_) ?_
    · refine agrees_second (agrees_block runs (by omega) _) fun body _ _ _ => ?_
      refine agrees_pure ?_ trivial
      exact congrArg Fallback.block (relocateBlock_eq_map ..).symm
    · exact agrees_pure rfl trivial

theorem agrees_incase (runs : RunsBelow shift list other bound nested twin)
    (short : scene.room < bound + 1) :
    scene.Agrees (.statements shift) 1 (incase nested) (incase twin) := by
  refine agrees_first (agrees_expect (by decide) _) fun keyword later room _ => ?_
  refine agrees_second (agrees_condition "incase") fun test tested roomTested _ => ?_
  refine agrees_second (agrees_block runs (by omega) _) fun body behind roomBehind _ => ?_
  refine agrees_budget_bind fun rounds more enough enoughOther => ?_
  refine agrees_second (agrees_fallback runs enough enoughOther (by omega)) fun rest _ _ _ => ?_
  refine agrees_pure ?_ trivial
  exact congrArg (Stmt.incase _ _ · _) (relocateBlock_eq_map ..).symm

/-! ## Loops -/

/-- A loop over an array, if it is one in the first list; in the second it then is one as well. -/
theorem agrees_throughLoop (runs : RunsBelow shift list other bound nested twin)
    (short : scene.room < bound + 1) (goesOn : scene.token.kind ≠ .endOfInput)
    (position : Position) :
    scene.Agrees (Motion.statements shift).option 1 (throughLoop nested position)
      (throughLoop twin (shift position)) := by
  refine agrees_first (agrees_advance goesOn) fun binding later room _ => ?_
  refine agrees_accept_bind (by decide) (fun name named roomNamed => ?_) ?_
  · refine agrees_accept_bind (by decide) (fun through opened roomOpened => ?_) ?_
    · refine agrees_second agrees_expression fun iterable _ roomIterable _ => ?_
      refine agrees_second (agrees_expect (by decide) _) fun _ closed roomClosed _ => ?_
      refine agrees_second (agrees_block runs (by omega) _) fun body _ _ _ => ?_
      refine agrees_pure ?_ fun _ _ => trivial
      exact congrArg (fun body => some (Stmt.through _ _ _ _ body)) (relocateBlock_eq_map ..).symm
    · exact agrees_pure rfl fun _ _ => trivial
  · exact agrees_pure rfl fun _ _ => trivial

theorem agrees_countingLoop (runs : RunsBelow shift list other bound nested twin)
    (short : scene.room < bound + 1) (position : Position) :
    scene.Agrees (.statements shift) 1 (countingLoop nested position)
      (countingLoop twin (shift position)) := by
  refine agrees_first agrees_declaration fun init _ roomInit _ => ?_
  refine agrees_second (agrees_expect (by decide) _) fun _ _ roomFirst _ => ?_
  refine agrees_second agrees_expression fun test _ roomTest _ => ?_
  refine agrees_second (agrees_expect (by decide) _) fun _ _ roomSecond _ => ?_
  refine agrees_second (agrees_expect (by decide) _) fun target _ roomTarget _ => ?_
  refine agrees_second (agrees_expect (by decide) _) fun _ _ roomEquals _ => ?_
  refine agrees_second agrees_expression fun update _ roomUpdate _ => ?_
  refine agrees_second (agrees_expect (by decide) _) fun _ _ roomClosed _ => ?_
  refine agrees_second (agrees_block runs (by omega) _) fun body _ _ _ => ?_
  refine agrees_pure ?_ trivial
  exact congrArg (Stmt.drift _ _ _ _) (relocateBlock_eq_map ..).symm

/-- A loop of either form: that over an array is attempted first, and both lists go back to the same
token if it is declined. -/
theorem agrees_drift (runs : RunsBelow shift list other bound nested twin)
    (short : scene.room < bound + 1) :
    scene.Agrees (.statements shift) 1 (drift nested) (drift twin) := by
  refine agrees_first (agrees_expect (by decide) _) fun keyword later room _ => ?_
  refine agrees_second (agrees_expect (by decide) _) fun _ opened roomOpened _ => ?_
  refine agrees_check_bind ?_
  cases declares : [Kind.keyword .constant, .keyword .mutable].contains opened.token.kind with
  | false => exact agrees_current_bind (agrees_throw .expected)
  | true =>
    -- at the end of input no declaration starts, so there is a token to take
    have goesOn : opened.token.kind ≠ .endOfInput := by
      intro ended
      rw [ended] at declares
      cases declares
    have loops := agrees_throughLoop runs (by omega) goesOn keyword.position
    have kept : ∀ (loop : Stmt) (later : Scene shift list other),
        (Motion.statements shift).placed loop →
        later.Agrees (.statements shift) 0 (pure loop) (pure (loop.relocate shift)) :=
      fun _ _ _ => agrees_pure rfl trivial
    refine (agrees_attempt_bind loops kept ?_).weaken (Nat.zero_le _)
    exact agrees_countingLoop runs (by omega) keyword.position

/-! ## Statements -/

theorem agrees_statementWith (runs : RunsBelow shift list other bound nested twin)
    (short : scene.room < bound + 1) :
    scene.Agrees (.statements shift) 1 (statementWith nested) (statementWith twin) := by
  have declares : scene.Agrees (.statements shift) 1
      (declaration >>= fun statement =>
        expect (.symbol .semicolon) "Expected ';' after variable declaration" >>= fun _ =>
          pure statement)
      (declaration >>= fun statement =>
        expect (.symbol .semicolon) "Expected ';' after variable declaration" >>= fun _ =>
          pure statement) := by
    refine agrees_first agrees_declaration fun statement _ _ _ => ?_
    refine agrees_second (agrees_expect (by decide) _) fun _ _ _ _ => ?_
    exact agrees_pure rfl trivial
  refine agrees_current_bind ?_
  generalize here : scene.token = token
  obtain ⟨kind, text, position⟩ := token
  -- a statement of one keyword and a semicolon
  have ends : ∀ (demand : String) (s : Stmt), kind ≠ .endOfInput →
      scene.Agrees (.statements shift) 1
        (advance >>= fun _ => expect (.symbol .semicolon) demand >>= fun _ => pure s)
        (advance >>= fun _ => expect (.symbol .semicolon) demand >>= fun _ =>
          pure (s.relocate shift)) := by
    intro demand s noEnd
    refine agrees_first (agrees_advance (by rw [here]; exact noEnd)) fun _ _ _ _ => ?_
    refine agrees_second (agrees_expect (by decide) _) fun _ _ _ _ => ?_
    exact agrees_pure rfl trivial
  dsimp only [Token.relocate]
  split
  · exact declares
  · exact declares
  · exact agrees_procedure runs short
  · exact agrees_returns
  · exact ends _ (.leave position) (by simp)
  · exact ends _ (.proceed position) (by simp)
  · exact agrees_incase runs short
  · exact agrees_drift runs short
  · exact agrees_attempt_bind agrees_assignment (fun _ _ _ => agrees_pure rfl trivial)
      agrees_expressionStatement
  · exact agrees_expressionStatement

theorem agrees_statementUpTo {depth more : Nat} (enough : scene.room < depth)
    (enoughOther : scene.room < more) :
    scene.Agrees (.statements shift) 1 (statementUpTo depth) (statementUpTo more) := by
  induction depth generalizing more scene with
  | zero => omega
  | succ depth ih =>
    cases more with
    | zero => omega
    | succ more =>
      have runs : RunsBelow shift list other (min depth more) (statementUpTo depth)
          (statementUpTo more) := fun scene short => ih (by omega) (by omega)
      exact agrees_statementWith runs (by omega)

/-- A statement is read alike in two lists that look alike. -/
theorem agrees_statement : scene.Agrees (.statements shift) 1 statement statement :=
  agrees_budget_bind fun _ _ enough enoughOther => agrees_statementUpTo enough enoughOther

/-- So are all statements up to the end of input. -/
theorem agrees_program : scene.Agrees (.programs shift) 0 program program := by
  refine agrees_current_bind ?_
  refine agrees_budget_bind fun rounds more enough enoughOther => ?_
  have runs : RunsBelow shift list other rounds statement statement :=
    fun _ _ => agrees_statement
  refine agrees_second (agrees_statementsUntil runs _ enough enoughOther enough)
    fun body _ _ _ => ?_
  refine agrees_pure ?_ trivial
  exact congrArg (Program.mk _) (relocateBlock_eq_map ..).symm

end Script.Parse.Scene
