import Script.Proofs.Parse.Progress

/-!
# No parser looks behind its cursor

A parser is `Shortsighted` if the token at which it leaves the cursor is the last one it has looked
at. In two lists that have the same tokens up to there it then does the same. This holds of every
parser of the language, although two of them go back: an assignment that is declined is read once
more as an expression statement, a loop as a counting loop, and either looks again at every token
that was seen before.

Bounds on loops are no obstacle: a list can be made longer by ends of input, which no parser
notices (`program_run_padded`), so two lists may be taken to have the same bounds.

* `fault_is_final`: a fault is found again in every list with the same tokens up to the cursor.
-/

namespace Script

/-! ## Longer lists -/

namespace TokenList

/-- A list with more ends of input behind it. -/
def padded (list : TokenList) (count : Nat) : TokenList where
  tokens := list.tokens ++ Array.replicate count list.final
  final := list.final
  ended := list.ended

@[simp]
theorem size_padded (list : TokenList) (count : Nat) :
    (list.padded count).tokens.size = list.tokens.size + count := by
  simp [padded]

@[simp]
theorem token_padded (list : TokenList) (count index : Nat) :
    (list.padded count).token index = list.token index := by
  unfold token padded
  rw [Array.getElem?_append]
  split
  · rfl
  · rename_i outside
    rw [Array.getElem?_eq_none (Nat.not_lt.mp outside), Array.getElem?_replicate]
    split <;> rfl

/-- A list ends with an end of input, and starts with the tokens it was made from. -/
theorem exists_ofList (tokens : List Token) : ∃ front final, final.kind = .endOfInput ∧
    (ofList tokens).tokens.toList = front ++ [final] ∧ tokens <+: front ++ [final] := by
  unfold ofList
  cases last : tokens.getLast? with
  | none =>
    obtain rfl : tokens = [] := List.getLast?_eq_none_iff.mp last
    exact ⟨[], _, rfl, rfl, List.nil_prefix⟩
  | some final =>
    by_cases ended : final.kind = .endOfInput
    · obtain ⟨front, rfl⟩ := List.getLast?_eq_some_iff.mp last
      exact ⟨front, final, ended, by simp [ended], List.prefix_rfl⟩
    · refine ⟨tokens, .endAt final.position, rfl, ?_, List.prefix_append _ _⟩
      simp [ended]

/-- So the first end of input stands in the list. -/
theorem lt_size_of_firstEnd {tokens : List Token} {stop : Nat}
    (first : (ofList tokens).FirstEnd 0 stop) : stop < (ofList tokens).tokens.size := by
  obtain ⟨front, final, ended, whole, -⟩ := exists_ofList tokens
  have last : (ofList tokens).token front.length = final := token_behind whole
  have inside : front.length < (ofList tokens).tokens.size := by
    rw [← Array.length_toList, whole, List.length_append]
    exact Nat.lt_succ_self _
  refine Nat.lt_of_le_of_lt (Nat.not_lt.mp fun before => ?_) inside
  exact first.goesOn _ (Nat.zero_le _) before (last ▸ ended)

/-- The tokens that a list was made from stand where they stood. -/
theorem getElem?_ofList {tokens : List Token} {index : Nat} (inside : index < tokens.length) :
    (ofList tokens).tokens[index]? = tokens[index]? := by
  obtain ⟨front, final, -, whole, rest, same⟩ := exists_ofList tokens
  rw [← Array.getElem?_toList, whole, ← same, List.getElem?_append_left inside]

end TokenList

namespace Parse

variable {α β : Type}

/-- Where a parser leaves the cursor. -/
def reach : EStateM.Result SyntaxFault Nat α → Nat
  | .ok _ cursor => cursor
  | .error _ cursor => cursor

/-- A parser moves the cursor forward, and what it does depends on no token behind it. -/
def Shortsighted (list other : TokenList) (parser : Parse α) : Prop :=
  ∀ cursor, cursor ≤ reach (parser list cursor) ∧
    ((∀ index ≤ reach (parser list cursor), other.token index = list.token index) →
      parser other cursor = parser list cursor)

variable {list other : TokenList}

/-! ## Ways to build parsers -/

theorem shortsighted_pure (value : α) : Shortsighted list other (pure value) :=
  fun cursor => ⟨Nat.le_refl cursor, fun _ => rfl⟩

theorem shortsighted_throw (fault : SyntaxFault) :
    Shortsighted list other (throw fault : Parse α) :=
  fun cursor => ⟨Nat.le_refl cursor, fun _ => rfl⟩

/-- What follows a parser starts where that ended. -/
theorem bind_apply (first : Parse α) (next : α → Parse β) (list : TokenList) (cursor : Nat) :
    (first >>= next) list cursor =
      match first list cursor with
      | .ok value middle => next value list middle
      | .error fault middle => .error fault middle := by
  show EStateM.bind (first list) (fun value => next value list) cursor = _
  unfold EStateM.bind
  cases first list cursor with
  | ok value middle => rfl
  | error fault middle => rfl

/-- One parser after another: the second starts where the first ended, so the tokens up to the end
of the second are all that either has looked at. -/
theorem shortsighted_bind {first : Parse α} {next : α → Parse β}
    (head : Shortsighted list other first)
    (tail : ∀ value, Shortsighted list other (next value)) :
    Shortsighted list other (first >>= next) := by
  intro cursor
  obtain ⟨onward, same⟩ := head cursor
  rw [bind_apply, bind_apply]
  cases run : first list cursor with
  | error fault middle =>
    rw [run] at onward same
    refine ⟨onward, fun alike => ?_⟩
    rw [same alike]
  | ok value middle =>
    rw [run] at onward same
    obtain ⟨further, sameNext⟩ := tail value middle
    refine ⟨Nat.le_trans onward further, fun alike => ?_⟩
    rw [same fun index inside => alike index (Nat.le_trans inside further)]
    exact sameNext alike

/-- What follows a success does not go back behind it. -/
theorem le_reach_bind (other : TokenList) {first : Parse α} {next : α → Parse β}
    {cursor middle : Nat} {value : α}
    (given : first.Gives list cursor value middle)
    (tail : Shortsighted list other (next value)) :
    middle ≤ reach ((first >>= next) list cursor) := by
  rw [bind_apply, gives_iff.mp given]
  exact (tail middle).1

/-- What follows a parser does not go back behind it. -/
theorem reach_le_bind (other : TokenList) {first : Parse α} {next : α → Parse β} {cursor : Nat}
    (tail : ∀ value, Shortsighted list other (next value)) :
    reach (first list cursor) ≤ reach ((first >>= next) list cursor) := by
  rw [bind_apply]
  cases first list cursor with
  | ok value middle => exact (tail value middle).1
  | error fault middle => exact Nat.le_refl middle

/-- A parser that may decline: the parser that is tried instead goes at least as far as the first
one had looked when it declined. -/
theorem shortsighted_attempt_bind {production : Parse (Option α)} {next : Option α → Parse β}
    (attempted : Shortsighted list other production)
    (kept : ∀ value, Shortsighted list other (next (some value)))
    (declined : Shortsighted list other (next none))
    (further : ∀ cursor middle, production list cursor = .ok none middle →
      middle ≤ reach (next none list cursor)) :
    Shortsighted list other (attempt production >>= next) := by
  intro cursor
  obtain ⟨onward, same⟩ := attempted cursor
  rw [Scene.attempt_bind_apply, Scene.attempt_bind_apply]
  cases run : production list cursor with
  | error fault middle =>
    rw [run] at onward same
    refine ⟨onward, fun alike => ?_⟩
    rw [same alike]
  | ok found middle =>
    rw [run] at onward same
    cases found with
    | some value =>
      obtain ⟨beyond, sameNext⟩ := kept value middle
      refine ⟨Nat.le_trans onward beyond, fun alike => ?_⟩
      rw [same fun index inside => alike index (Nat.le_trans inside beyond)]
      exact sameNext alike
    -- the cursor goes back, so what was seen before must lie before the end of what is tried
    -- instead
    | none =>
      obtain ⟨beyond, sameNext⟩ := declined cursor
      refine ⟨beyond, fun alike => ?_⟩
      rw [same fun index inside => alike index (Nat.le_trans inside (further cursor middle run))]
      exact sameNext alike

/-! ## The cursor -/

theorem shortsighted_current : Shortsighted list other current := by
  intro cursor
  refine ⟨Nat.le_refl cursor, fun alike => ?_⟩
  show EStateM.Result.ok (other.token cursor) cursor = .ok (list.token cursor) cursor
  rw [alike cursor (Nat.le_refl cursor)]

theorem shortsighted_currentKind : Shortsighted list other currentKind :=
  shortsighted_bind shortsighted_current fun token => shortsighted_pure token.kind

theorem shortsighted_check (kinds : List Kind) : Shortsighted list other (check kinds) :=
  shortsighted_bind shortsighted_currentKind fun kind => shortsighted_pure (kinds.contains kind)

theorem shortsighted_advance : Shortsighted list other advance := by
  refine shortsighted_bind shortsighted_current fun token => ?_
  split
  · exact shortsighted_pure token
  · exact fun cursor => ⟨Nat.le_succ cursor, fun _ => rfl⟩

theorem shortsighted_accept (kind : Kind) : Shortsighted list other (accept kind) := by
  refine shortsighted_bind (shortsighted_check [kind]) fun found => ?_
  cases found with
  | true => exact shortsighted_bind shortsighted_advance fun token => shortsighted_pure (some token)
  | false => exact shortsighted_pure none

theorem shortsighted_expect (kind : Kind) (demand : String) :
    Shortsighted list other (expect kind demand) := by
  refine shortsighted_bind shortsighted_current fun token => ?_
  split
  · exact shortsighted_advance
  · exact shortsighted_throw _

theorem shortsighted_outOfBudget : Shortsighted list other (outOfBudget : Parse α) :=
  shortsighted_bind shortsighted_current fun _ => shortsighted_throw _

section

variable (sizes : other.tokens.size = list.tokens.size)

include sizes

/-- Bounds come from the size of the list alone, so lists of one size have the same bounds. -/
theorem shortsighted_budget : Shortsighted list other budget := by
  intro cursor
  refine ⟨Nat.le_refl cursor, fun _ => ?_⟩
  show EStateM.Result.ok (other.tokens.size + 1) cursor = .ok (list.tokens.size + 1) cursor
  rw [sizes]

/-! ## Lists -/

omit sizes in
theorem shortsighted_commaSeparated {item : Parse α} (items : Shortsighted list other item)
    (rounds : Nat) : Shortsighted list other (commaSeparated item rounds) := by
  induction rounds with
  | zero => exact shortsighted_outOfBudget
  | succ rounds ih =>
    refine shortsighted_bind items fun first => ?_
    refine shortsighted_bind (shortsighted_accept _) fun comma => ?_
    cases comma with
    | some comma => exact shortsighted_bind ih fun others => shortsighted_pure _
    | none => exact shortsighted_pure _

theorem shortsighted_commaList {item : Parse α} (items : Shortsighted list other item)
    (closing : Symbol) (demand : String) :
    Shortsighted list other (commaList item closing demand) := by
  -- with items or without, the closing symbol comes last
  have ending : ∀ values : List α, Shortsighted list other
      (expect (.symbol closing) demand >>= fun _ => pure values) := fun values =>
    shortsighted_bind (shortsighted_expect _ _) fun _ => shortsighted_pure values
  refine shortsighted_bind (shortsighted_check _) fun closed => ?_
  cases closed with
  | true => exact ending []
  | false =>
    refine shortsighted_bind (shortsighted_budget sizes) fun rounds => ?_
    exact shortsighted_bind (shortsighted_commaSeparated items rounds) ending

/-! ## Expressions -/

section

variable {nested : Parse Expr} (reads : Shortsighted list other nested)

include reads

omit sizes in
theorem shortsighted_property : Shortsighted list other (property nested) := by
  refine shortsighted_bind (shortsighted_expect _ _) fun key => ?_
  refine shortsighted_bind (shortsighted_expect _ _) fun _ => ?_
  exact shortsighted_bind reads fun value => shortsighted_pure _

theorem shortsighted_primary : Shortsighted list other (primary nested) := by
  -- eight forms are one token each
  have literal : ∀ e : Expr, Shortsighted list other (advance >>= fun _ => pure e) := fun e =>
    shortsighted_bind shortsighted_advance fun _ => shortsighted_pure e
  refine shortsighted_bind shortsighted_current fun token => ?_
  dsimp only
  split
  · exact literal _
  · exact literal _
  · exact literal _
  · exact literal _
  · exact literal _
  · exact literal _
  · exact literal _
  · exact literal _
  · refine shortsighted_bind shortsighted_advance fun _ => ?_
    exact shortsighted_bind (shortsighted_commaList sizes reads _ _) fun _ => shortsighted_pure _
  · refine shortsighted_bind shortsighted_advance fun _ => ?_
    exact shortsighted_bind (shortsighted_commaList sizes (shortsighted_property reads) _ _)
      fun _ => shortsighted_pure _
  · refine shortsighted_bind shortsighted_advance fun _ => ?_
    refine shortsighted_bind reads fun inner => ?_
    exact shortsighted_bind (shortsighted_expect _ _) fun _ => shortsighted_pure inner
  · exact shortsighted_throw _

theorem shortsighted_link (inner : Expr) : Shortsighted list other (link nested inner) := by
  refine shortsighted_bind shortsighted_currentKind fun kind => ?_
  split
  · refine shortsighted_bind shortsighted_advance fun _ => ?_
    exact shortsighted_bind (shortsighted_expect _ _) fun name => shortsighted_pure _
  · refine shortsighted_bind shortsighted_advance fun _ => ?_
    exact shortsighted_bind reads fun key => shortsighted_pure _
  · refine shortsighted_bind shortsighted_advance fun _ => ?_
    refine shortsighted_bind reads fun key => ?_
    exact shortsighted_bind (shortsighted_expect _ _) fun _ => shortsighted_pure _
  · refine shortsighted_bind shortsighted_advance fun _ => ?_
    exact shortsighted_bind (shortsighted_commaList sizes reads _ _) fun _ => shortsighted_pure _
  · exact shortsighted_pure none

theorem shortsighted_links (rounds : Nat) :
    ∀ inner : Expr, Shortsighted list other (links nested rounds inner) := by
  induction rounds with
  | zero => exact fun _ => shortsighted_outOfBudget
  | succ rounds ih =>
    intro inner
    refine shortsighted_bind (shortsighted_link sizes reads inner) fun found => ?_
    cases found with
    | some outer => exact ih outer
    | none => exact shortsighted_pure inner

theorem shortsighted_chain : Shortsighted list other (chain nested) := by
  refine shortsighted_bind (shortsighted_budget sizes) fun rounds => ?_
  exact shortsighted_bind (shortsighted_primary sizes reads) (shortsighted_links sizes reads rounds)

theorem shortsighted_unaryUpTo (rounds : Nat) :
    Shortsighted list other (unaryUpTo nested rounds) := by
  induction rounds with
  | zero => exact shortsighted_outOfBudget
  | succ rounds ih =>
    refine shortsighted_bind shortsighted_current fun token => ?_
    cases unaryOperator? token.kind with
    | some operator =>
      refine shortsighted_bind shortsighted_advance fun _ => ?_
      exact shortsighted_bind ih fun operand => shortsighted_pure _
    | none => exact shortsighted_chain sizes reads

omit sizes reads in
theorem shortsighted_operators (level : Level) {operand : Parse Expr}
    (operands : Shortsighted list other operand) (rounds : Nat) :
    ∀ left : Expr, Shortsighted list other (operators level operand rounds left) := by
  induction rounds with
  | zero => exact fun _ => shortsighted_outOfBudget
  | succ rounds ih =>
    intro left
    refine shortsighted_bind shortsighted_currentKind fun kind => ?_
    cases level.operator? kind with
    | some operator =>
      refine shortsighted_bind shortsighted_advance fun _ => ?_
      exact shortsighted_bind operands fun right => ih _
    | none => exact shortsighted_pure left

theorem shortsighted_binary (levels : List Level) :
    Shortsighted list other (binary nested levels) := by
  -- by induction on the levels, from the one that binds tightest
  induction levels with
  | nil => exact shortsighted_bind (shortsighted_budget sizes) (shortsighted_unaryUpTo sizes reads)
  | cons level tighter ih =>
    refine shortsighted_bind ih fun left => ?_
    refine shortsighted_bind (shortsighted_budget sizes) fun rounds => ?_
    exact shortsighted_operators level ih rounds left

end

theorem shortsighted_expression : Shortsighted list other expression := by
  have nested : ∀ depth, Shortsighted list other (expressionUpTo depth) := by
    intro depth
    -- by induction on the budget for nesting; the same budget is found in both lists
    induction depth with
    | zero => exact shortsighted_outOfBudget
    | succ depth ih => exact shortsighted_binary sizes ih levels
  exact shortsighted_bind (shortsighted_budget sizes) nested

/-! ## Statements without blocks -/

/-- The rest of a declaration, behind its name. -/
theorem shortsighted_initializer (keyword name : Token) : Shortsighted list other (do
    let _ ← expect (.symbol .equals) "Expected '=' after variable name"
    let value ← expression
    return Stmt.declare keyword.position name.text
      (decide (keyword.kind = .keyword .constant)) value) := by
  refine shortsighted_bind (shortsighted_expect _ _) fun _ => ?_
  exact shortsighted_bind (shortsighted_expression sizes) fun value => shortsighted_pure _

theorem shortsighted_declaration : Shortsighted list other declaration := by
  refine shortsighted_bind shortsighted_advance fun keyword => ?_
  exact shortsighted_bind (shortsighted_expect _ _) fun name =>
    shortsighted_initializer sizes keyword name

/-- An assignment may be declined; then it has looked at one token behind its target. -/
theorem shortsighted_assignment : Shortsighted list other assignment := by
  refine shortsighted_bind shortsighted_current fun start => ?_
  refine shortsighted_bind (shortsighted_expression sizes) fun target => ?_
  refine shortsighted_bind (shortsighted_accept _) fun equals => ?_
  cases equals with
  | none => exact shortsighted_pure none
  | some equals =>
    refine shortsighted_bind (shortsighted_expression sizes) fun value => ?_
    refine shortsighted_bind (shortsighted_expect _ _) fun _ => ?_
    cases assignmentTo? start.position target value with
    | some statement => exact shortsighted_pure (some statement)
    | none => exact shortsighted_throw _

theorem shortsighted_expressionStatement : Shortsighted list other expressionStatement := by
  refine shortsighted_bind (shortsighted_expression sizes) fun value => ?_
  exact shortsighted_bind (shortsighted_expect _ _) fun _ => shortsighted_pure _

omit sizes in
/-- An assignment is declined behind an expression, and so far goes the expression statement too. -/
theorem assignment_reach {cursor middle : Nat}
    (declined : assignment list cursor = .ok none middle) :
    middle ≤ reach (expressionStatement list cursor) := by
  have given : assignment.Gives list cursor none middle := gives_iff.mpr declined
  unfold assignment at given
  rw [gives_current_bind] at given
  obtain ⟨target, behind, taken, afterTarget⟩ := gives_bind.mp given
  obtain ⟨equals, next, accepted, rest⟩ := gives_bind.mp afterTarget
  cases equals with
  | none =>
    obtain ⟨-, rfl⟩ := (gives_accept_none (by decide)).mp accepted
    obtain ⟨-, rfl⟩ := gives_pure.mp rest
    exact le_reach_bind list taken
      (shortsighted_bind (shortsighted_expect _ _) fun _ => shortsighted_pure _)
  | some equals =>
    -- behind `=` nothing is declined
    obtain ⟨value, _, _, afterValue⟩ := gives_bind.mp rest
    obtain ⟨_, _, _, ending⟩ := gives_bind.mp afterValue
    split at ending
    · cases (gives_pure.mp ending).1
    · exact absurd ending gives_throw

omit sizes in
/-- A parameter that was named before is refused behind its name, so the cursor is there already. -/
theorem shortsighted_parametersFrom (procedure : String) (rounds : Nat) :
    ∀ seen : List String, Shortsighted list other (parametersFrom procedure seen rounds) := by
  induction rounds with
  | zero => exact fun _ => shortsighted_outOfBudget
  | succ rounds ih =>
    intro seen
    refine shortsighted_bind (shortsighted_expect _ _) fun parameter => ?_
    split
    · exact shortsighted_throw _
    · refine shortsighted_bind (shortsighted_accept _) fun comma => ?_
      cases comma with
      | some comma => exact ih _
      | none => exact shortsighted_pure _

theorem shortsighted_returns : Shortsighted list other returns := by
  refine shortsighted_bind (shortsighted_expect _ _) fun keyword => ?_
  refine shortsighted_bind (shortsighted_expression sizes) fun value => ?_
  exact shortsighted_bind (shortsighted_expect _ _) fun _ => shortsighted_pure _

theorem shortsighted_condition (keyword : String) :
    Shortsighted list other (condition keyword) := by
  refine shortsighted_bind (shortsighted_expect _ _) fun _ => ?_
  refine shortsighted_bind (shortsighted_expression sizes) fun value => ?_
  exact shortsighted_bind (shortsighted_expect _ _) fun _ => shortsighted_pure value

/-! ## Statements with blocks -/

section

variable {nested : Parse Stmt} (runs : Shortsighted list other nested)

include runs

omit sizes in
theorem shortsighted_statementsUntil (ends : List Kind) (rounds : Nat) :
    Shortsighted list other (statementsUntil nested ends rounds) := by
  induction rounds with
  | zero => exact shortsighted_outOfBudget
  | succ rounds ih =>
    refine shortsighted_bind (shortsighted_check ends) fun ended => ?_
    cases ended with
    | true => exact shortsighted_pure []
    | false =>
      refine shortsighted_bind runs fun first => ?_
      exact shortsighted_bind ih fun others => shortsighted_pure _

theorem shortsighted_block (what : String) : Shortsighted list other (block nested what) := by
  refine shortsighted_bind (shortsighted_expect _ _) fun _ => ?_
  refine shortsighted_bind (shortsighted_budget sizes) fun rounds => ?_
  refine shortsighted_bind (shortsighted_statementsUntil runs _ rounds) fun body => ?_
  exact shortsighted_bind (shortsighted_expect _ _) fun _ => shortsighted_pure body

theorem shortsighted_procedure : Shortsighted list other (procedure nested) := by
  refine shortsighted_bind (shortsighted_expect _ _) fun keyword => ?_
  refine shortsighted_bind (shortsighted_expect _ _) fun name => ?_
  refine shortsighted_bind (shortsighted_expect _ _) fun _ => ?_
  have rest : ∀ parameters : List String, Shortsighted list other (do
      let _ ← expect (.symbol .rightParen) "Expected ')' after parameters"
      let body ← block nested "procedure body"
      return Stmt.procedure keyword.position name.text parameters body) := by
    intro parameters
    refine shortsighted_bind (shortsighted_expect _ _) fun _ => ?_
    exact shortsighted_bind (shortsighted_block sizes runs _) fun body => shortsighted_pure _
  refine shortsighted_bind (shortsighted_check _) fun closed => ?_
  cases closed with
  | true => exact rest []
  | false =>
    refine shortsighted_bind (shortsighted_budget sizes) fun rounds => ?_
    exact shortsighted_bind (shortsighted_parametersFrom _ rounds []) rest

theorem shortsighted_fallback (rounds : Nat) :
    Shortsighted list other (fallback nested rounds) := by
  induction rounds with
  | zero => exact shortsighted_outOfBudget
  | succ rounds ih =>
    refine shortsighted_bind (shortsighted_accept _) fun keyword => ?_
    cases keyword with
    | some keyword =>
      refine shortsighted_bind (shortsighted_condition sizes _) fun test => ?_
      refine shortsighted_bind (shortsighted_block sizes runs _) fun body => ?_
      exact shortsighted_bind ih fun rest => shortsighted_pure _
    | none =>
      refine shortsighted_bind (shortsighted_accept _) fun keyword => ?_
      cases keyword with
      | some keyword =>
        exact shortsighted_bind (shortsighted_block sizes runs _) fun body => shortsighted_pure _
      | none => exact shortsighted_pure _

theorem shortsighted_incase : Shortsighted list other (incase nested) := by
  refine shortsighted_bind (shortsighted_expect _ _) fun keyword => ?_
  refine shortsighted_bind (shortsighted_condition sizes _) fun test => ?_
  refine shortsighted_bind (shortsighted_block sizes runs _) fun body => ?_
  refine shortsighted_bind (shortsighted_budget sizes) fun rounds => ?_
  exact shortsighted_bind (shortsighted_fallback sizes runs rounds) fun rest => shortsighted_pure _

/-- A loop through an array is declined behind its name at the latest. -/
theorem shortsighted_throughLoop (position : Position) :
    Shortsighted list other (throughLoop nested position) := by
  refine shortsighted_bind shortsighted_advance fun binding => ?_
  refine shortsighted_bind (shortsighted_accept _) fun name => ?_
  cases name with
  | none => exact shortsighted_pure none
  | some name =>
    refine shortsighted_bind (shortsighted_accept _) fun through => ?_
    cases through with
    | none => exact shortsighted_pure none
    | some through =>
      refine shortsighted_bind (shortsighted_expression sizes) fun iterable => ?_
      refine shortsighted_bind (shortsighted_expect _ _) fun _ => ?_
      exact shortsighted_bind (shortsighted_block sizes runs _) fun body => shortsighted_pure _

/-- The rest of a counting loop, behind its declaration. -/
theorem shortsighted_countingRest (position : Position) (init : Stmt) :
    Shortsighted list other (do
      let _ ← expect (.symbol .semicolon) "Expected ';' after loop initialization"
      let test ← expression
      let _ ← expect (.symbol .semicolon) "Expected ';' after loop condition"
      let target ← expect .identifier "Expected variable name in update"
      let _ ← expect (.symbol .equals) "Expected '=' in update"
      let update ← expression
      let _ ← expect (.symbol .rightParen) "Expected ')' after loop header"
      let body ← block nested "loop body"
      return Stmt.drift position init test (.assign target.position target.text update) body) := by
  refine shortsighted_bind (shortsighted_expect _ _) fun _ => ?_
  refine shortsighted_bind (shortsighted_expression sizes) fun test => ?_
  refine shortsighted_bind (shortsighted_expect _ _) fun _ => ?_
  refine shortsighted_bind (shortsighted_expect _ _) fun target => ?_
  refine shortsighted_bind (shortsighted_expect _ _) fun _ => ?_
  refine shortsighted_bind (shortsighted_expression sizes) fun update => ?_
  refine shortsighted_bind (shortsighted_expect _ _) fun _ => ?_
  exact shortsighted_bind (shortsighted_block sizes runs _) fun body => shortsighted_pure _

theorem shortsighted_countingLoop (position : Position) :
    Shortsighted list other (countingLoop nested position) :=
  shortsighted_bind (shortsighted_declaration sizes) (shortsighted_countingRest sizes runs position)

omit sizes runs in
/-- A loop through an array is declined where a declaration has its name or the `=` behind it, and
so far goes the declaration too. -/
theorem throughLoop_reach_declaration {cursor middle : Nat} {position : Position}
    (declined : throughLoop nested position list cursor = .ok none middle) :
    middle ≤ reach (declaration list cursor) := by
  have given : (throughLoop nested position).Gives list cursor none middle :=
    gives_iff.mpr declined
  unfold throughLoop at given
  obtain ⟨binding, behind, taken, afterBinding⟩ := gives_bind.mp given
  obtain ⟨name, next, accepted, afterName⟩ := gives_bind.mp afterBinding
  cases name with
  | none =>
    obtain ⟨-, rfl⟩ := (gives_accept_none (by decide)).mp accepted
    obtain ⟨-, rfl⟩ := gives_pure.mp afterName
    exact le_reach_bind list taken (shortsighted_bind (shortsighted_expect _ _) fun name =>
      shortsighted_initializer rfl binding name)
  | some name =>
    obtain ⟨through, last, refused, rest⟩ := gives_bind.mp afterName
    cases through with
    -- a name, but no `through`: the declaration expects `=` at the token that was looked at
    | none =>
      obtain ⟨-, rfl⟩ := (gives_accept_none (by decide)).mp refused
      obtain ⟨-, rfl⟩ := gives_pure.mp rest
      have named : (expect .identifier "Expected variable name").Gives list behind name middle :=
        (gives_expect (by decide)).mpr ((gives_accept_some (by decide)).mp accepted)
      show middle ≤ reach ((advance >>= _) list cursor)
      rw [bind_apply, gives_iff.mp taken]
      exact le_reach_bind list named (shortsighted_initializer rfl binding name)
    | some through =>
      -- behind `through` nothing is declined
      obtain ⟨iterable, _, _, afterIterable⟩ := gives_bind.mp rest
      obtain ⟨_, _, _, afterHeader⟩ := gives_bind.mp afterIterable
      obtain ⟨body, _, _, ending⟩ := gives_bind.mp afterHeader
      cases (gives_pure.mp ending).1

/-- The counting loop that is tried instead starts with that declaration, so it goes as far. -/
theorem throughLoop_reach {cursor middle : Nat} (position : Position)
    (declined : throughLoop nested position list cursor = .ok none middle) :
    middle ≤ reach (countingLoop nested position list cursor) :=
  Nat.le_trans (throughLoop_reach_declaration declined)
    (reach_le_bind other (shortsighted_countingRest sizes runs position))

/-- A loop of either form. The counting loop is tried from the token where the other one started. -/
theorem shortsighted_drift : Shortsighted list other (drift nested) := by
  refine shortsighted_bind (shortsighted_expect _ _) fun keyword => ?_
  refine shortsighted_bind (shortsighted_expect _ _) fun _ => ?_
  refine shortsighted_bind (shortsighted_check _) fun declares => ?_
  cases declares with
  | false => exact shortsighted_bind shortsighted_current fun token => shortsighted_throw _
  | true =>
    exact shortsighted_attempt_bind (shortsighted_throughLoop sizes runs keyword.position)
      shortsighted_pure (shortsighted_countingLoop sizes runs keyword.position)
      fun _ _ => throughLoop_reach sizes runs keyword.position

/-- The first token decides the form of a statement, but for assignments, which are attempted. -/
theorem shortsighted_statementWith : Shortsighted list other (statementWith nested) := by
  have ends : ∀ (demand : String) (s : Stmt), Shortsighted list other
      (expect (.symbol .semicolon) demand >>= fun _ => pure s) := fun demand s =>
    shortsighted_bind (shortsighted_expect _ _) fun _ => shortsighted_pure s
  refine shortsighted_bind shortsighted_current fun token => ?_
  split
  · exact shortsighted_bind (shortsighted_declaration sizes) (ends _)
  · exact shortsighted_bind (shortsighted_declaration sizes) (ends _)
  · exact shortsighted_procedure sizes runs
  · exact shortsighted_returns sizes
  · exact shortsighted_bind shortsighted_advance fun _ => ends _ _
  · exact shortsighted_bind shortsighted_advance fun _ => ends _ _
  · exact shortsighted_incase sizes runs
  · exact shortsighted_drift sizes runs
  · exact shortsighted_attempt_bind (shortsighted_assignment sizes) shortsighted_pure
      (shortsighted_expressionStatement sizes) fun _ _ => assignment_reach
  · exact shortsighted_expressionStatement sizes

end

theorem shortsighted_statement : Shortsighted list other statement := by
  have nested : ∀ depth, Shortsighted list other (statementUpTo depth) := by
    intro depth
    induction depth with
    | zero => exact shortsighted_outOfBudget
    | succ depth ih => exact shortsighted_statementWith sizes ih
  exact shortsighted_bind (shortsighted_budget sizes) nested

/-- Every parser is shortsighted, that of programs included. -/
theorem shortsighted_program : Shortsighted list other program := by
  refine shortsighted_bind shortsighted_current fun first => ?_
  refine shortsighted_bind (shortsighted_budget sizes) fun rounds => ?_
  exact shortsighted_bind (shortsighted_statementsUntil (shortsighted_statement sizes) _ rounds)
    fun body => shortsighted_pure _

end

/-! ## Faults -/

/-- Ends of input behind a list are not noticed. -/
theorem program_run_padded (tokens : List Token) (count : Nat) :
    program.run ((TokenList.ofList tokens).padded count) 0 = program.run (.ofList tokens) 0 :=
  run_eq_of_agrees programs_still (fun _ => Scene.agrees_program) (TokenList.firstEnd_ofList tokens)
    fun index _ _ => TokenList.token_padded _ _ index

theorem run_snd (parser : Parse α) (list : TokenList) (cursor : Nat) :
    (parser.run list cursor).2 = reach (parser list cursor) := by
  unfold run ReaderT.run
  cases parser list cursor with
  | ok value after => rfl
  | error fault after => rfl

/-- Two lists with the same tokens up to where the cursor is left in one are parsed alike. -/
theorem program_run_of_same {tokens others : List Token}
    (same : ∀ index ≤ (program.run (.ofList tokens) 0).2,
      (TokenList.ofList others).token index = (TokenList.ofList tokens).token index) :
    program.run (.ofList others) 0 = program.run (.ofList tokens) 0 := by
  -- each list is made longer by the length of the other
  have one := program_run_padded tokens (TokenList.ofList others).tokens.size
  have two := program_run_padded others (TokenList.ofList tokens).tokens.size
  rw [← one] at same ⊢
  rw [← two]
  refine run_congr ((shortsighted_program ?_ 0).2 fun index inside => ?_)
  · rw [TokenList.size_padded, TokenList.size_padded, Nat.add_comm]
  · rw [TokenList.token_padded, TokenList.token_padded]
    exact same index (by rwa [run_snd])

end Parse

open Parse

/-- A fault depends on the tokens up to the cursor only. Where a token list is refused with the
cursor at some token, every list with the same tokens up to and including that one is refused for
the same fault, with the same message on the same line, and with the cursor at the same token; so
no way to go on from there makes a program of it. -/
theorem fault_is_final {tokens : List Token} {fault : SyntaxFault} {cursor : Nat}
    (failed : program.run (.ofList tokens) 0 = (.error fault, cursor)) :
    (∀ line, fault ≠ .outOfBudget line) ∧ cursor < (TokenList.ofList tokens).tokens.size ∧
    (∀ others, (∀ index ≤ cursor, (TokenList.ofList others).tokens[index]? =
        (TokenList.ofList tokens).tokens[index]?) →
      program.run (.ofList others) 0 = (.error fault, cursor) ∧ parse others = .error fault) ∧
    ∀ others, parse ((TokenList.ofList tokens).tokens.toList.take (cursor + 1) ++ others) =
      .error fault := by
  have first := TokenList.firstEnd_ofList tokens
  -- a token list that is refused is refused at one of its tokens, and not for want of rounds
  have bounds : cursor ≤ (Grammar.beforeEnd tokens).length ∧ ∀ line, fault ≠ .outOfBudget line := by
    rcases program_run_cases first with ⟨_, run⟩ | ⟨_, _, run, inside, bounded⟩
    · cases failed.symm.trans run
    · cases failed.symm.trans run
      exact ⟨inside, bounded⟩
  have inside := Nat.lt_of_le_of_lt bounds.1 (TokenList.lt_size_of_firstEnd first)
  have same : ∀ others, (∀ index ≤ cursor, (TokenList.ofList others).tokens[index]? =
        (TokenList.ofList tokens).tokens[index]?) →
      program.run (.ofList others) 0 = (.error fault, cursor) := by
    intro others alike
    rw [← failed]
    refine program_run_of_same fun index before => ?_
    rw [failed] at before
    -- inside the list the tokens are those at the same places, not the end of input that stands for
    -- all behind it
    have here := Nat.lt_of_le_of_lt before inside
    unfold TokenList.token
    rw [alike index before, Array.getElem?_eq_getElem here]
    rfl
  refine ⟨bounds.2, inside, fun others alike => ?_, fun others => ?_⟩
  · exact ⟨same others alike, congrArg Prod.fst (same others alike)⟩
  · refine congrArg Prod.fst (same _ fun index before => ?_)
    have taken : index < ((TokenList.ofList tokens).tokens.toList.take (cursor + 1)).length := by
      rw [List.length_take, Array.length_toList]
      omega
    rw [TokenList.getElem?_ofList (by rw [List.length_append]; omega),
      List.getElem?_append_left taken, List.getElem?_take_of_lt (Nat.lt_succ_of_le before),
      Array.getElem?_toList]

/-- Two parameters of the same name, and a token behind them that is never looked at. -/
def repeatedParameter : List Token :=
  [⟨.keyword .procedure, "procedure", ⟨1, 1⟩⟩, ⟨.identifier, "f", ⟨1, 11⟩⟩,
   ⟨.symbol .leftParen, "(", ⟨1, 12⟩⟩, ⟨.identifier, "x", ⟨1, 13⟩⟩, ⟨.symbol .comma, ",", ⟨1, 14⟩⟩,
   ⟨.identifier, "x", ⟨2, 1⟩⟩, ⟨.symbol .comma, ",", ⟨2, 2⟩⟩, ⟨.number, "1", ⟨2, 3⟩⟩]

/-- It is refused at the second name, whatever comes behind the comma after it. -/
theorem repeatedParameter_refused :
    program.run (.ofList repeatedParameter) 0 = (.error (.duplicateParameter "x" "f" 2), 6) ∧
    ∀ others, parse (repeatedParameter.take 7 ++ others) =
      .error (.duplicateParameter "x" "f" 2) := by
  have failed : program.run (.ofList repeatedParameter) 0 =
      (.error (.duplicateParameter "x" "f" 2), 6) := by rfl
  exact ⟨failed, (fault_is_final failed).2.2.2⟩

end Script
