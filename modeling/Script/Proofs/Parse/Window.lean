import Script.Parse.Statement
import Script.Proofs.Parse.Cursor
import Script.Proofs.Token.Joining
import Script.Proofs.Tree.Relocation

/-!
# A token list inside another

A `Window` shows the tokens of one list, up to a limit, at an offset in another list and with their
positions shifted. A parser that stays within the window reads in the other list what it reads in
the first, and gives the same tree at the shifted positions: `Tracks`, with one lemma for each
parser. Only where the list ends can the two differ, since the first has its end of input there. A
parser must therefore stop before the limit (`slack` 0), or take the last token before it
(`slack` 1), as every statement does.

* `tracks_statement`: a statement that stands in the window is read alike in both lists.
-/

namespace Script.Parse

/-- A token list that can be seen inside another one. -/
structure Window where
  list : TokenList
  whole : TokenList
  shift : Position → Position
  offset : Nat
  limit : Nat
  same : ∀ index < limit, whole.token (index + offset) = (list.token index).relocate shift
  goesOn : ∀ index < limit, (list.token index).kind ≠ .endOfInput
  ended : (list.token limit).kind = .endOfInput
  room : list.tokens.size ≤ whole.tokens.size

/-- How results move from one list to the other, and what is known of them besides. -/
structure Motion (α : Type) where
  move : α → α
  placed : α → Prop := fun _ => True

namespace Motion

variable {α : Type}

/-- Results that do not depend on positions. -/
def still : Motion α := ⟨id, fun _ => True⟩

def option (motion : Motion α) : Motion (Option α) :=
  ⟨Option.map motion.move, fun found => ∀ value, found = some value → motion.placed value⟩

def list (motion : Motion α) : Motion (List α) := ⟨List.map motion.move, fun _ => True⟩

def entry (motion : Motion α) : Motion (String × α) :=
  ⟨fun entry => (entry.1, motion.move entry.2), fun _ => True⟩

end Motion

namespace Window

variable {α β : Type} (window : Window)

/-! ## What moves -/

def tokens : Motion Token := ⟨Token.relocate window.shift, fun _ => True⟩

/-- An expression moves with its position, from which the nodes around it have theirs. -/
def expressions : Motion Expr :=
  ⟨Expr.relocate window.shift,
    fun e => (e.relocate window.shift).position = window.shift e.position⟩

def statements : Motion Stmt := ⟨Stmt.relocate window.shift, fun _ => True⟩

def fallbacks : Motion Fallback := ⟨Fallback.relocate window.shift, fun _ => True⟩

/-! ## Tracking -/

/-- A parser has read something in the list, so many tokens at least and nothing behind the limit.
If it has ended before the limit, or so much behind it, then another parser does the same in the
other list. -/
structure Tracked (motion : Motion α) (progress slack : Nat) (other : Parse α)
    (cursor after : Nat) (result : α) : Prop where
  moves : cursor + progress ≤ after
  stays : cursor ≤ window.limit → after ≤ window.limit
  placed : motion.placed result
  reads : after < window.limit + slack →
    other.Gives window.whole (cursor + window.offset) (motion.move result) (after + window.offset)

/-- Another parser does in the other list what a parser does in the list, wherever it succeeds. -/
def Tracks (motion : Motion α) (progress slack : Nat) (parser other : Parse α) : Prop :=
  ∀ (cursor after : Nat) (result : α), parser.Gives window.list cursor result after →
    window.Tracked motion progress slack other cursor after result

variable {window} {motion : Motion α} {target : Motion β} {progress slack : Nat}

theorem Tracks.weaken {parser other : Parse α} {less tighter : Nat}
    (tracks : window.Tracks motion progress slack parser other) (fewer : less ≤ progress)
    (closer : tighter ≤ slack) : window.Tracks motion less tighter parser other := by
  intro cursor after result given
  obtain ⟨moves, stays, placed, reads⟩ := tracks _ _ _ given
  exact ⟨by omega, stays, placed, fun inside => reads (by omega)⟩

theorem tracks_pure {value moved : α} (same : moved = motion.move value)
    (placed : motion.placed value) (slack : Nat) :
    window.Tracks motion 0 slack (pure value) (pure moved) := by
  intro cursor after result given
  obtain ⟨rfl, rfl⟩ := gives_pure.mp given
  exact ⟨Nat.le_refl _, id, placed, fun _ => gives_pure.mpr ⟨same.symm, rfl⟩⟩

theorem tracks_throw {fault : SyntaxFault} {other : Parse α} :
    window.Tracks motion progress slack (throw fault) other :=
  fun _ _ _ given => absurd given gives_throw

theorem tracks_outOfBudget {other : Parse α} :
    window.Tracks motion progress slack outOfBudget other :=
  fun _ _ _ given => absurd given gives_outOfBudget

/-- The second parser starts where the first one ends, which is before the limit if the second one
takes what lies behind it. -/
theorem tracks_bind {first other : Parse α} {next further : α → Parse β}
    {firstProgress firstSlack total : Nat}
    (head : window.Tracks motion firstProgress firstSlack first other)
    (tail : ∀ value, motion.placed value →
      window.Tracks target progress slack (next value) (further (motion.move value)))
    (close : slack ≤ firstSlack + progress) (enough : total ≤ firstProgress + progress) :
    window.Tracks target total slack (first >>= next) (other >>= further) := by
  intro cursor after result given
  obtain ⟨value, middle, taken, rest⟩ := gives_bind.mp given
  obtain ⟨moves, stays, placed, reads⟩ := head _ _ _ taken
  obtain ⟨movesOn, staysOn, placedResult, readsOn⟩ := tail value placed _ _ _ rest
  refine ⟨by omega, fun inside => staysOn (stays inside), placedResult, ?_⟩
  intro inside
  exact gives_bind.mpr ⟨_, _, reads (by omega), readsOn inside⟩

/-- Two parsers that stop before the limit. -/
theorem tracks_within {first other : Parse α} {next further : α → Parse β}
    (head : window.Tracks motion progress slack first other)
    (tail : ∀ value, motion.placed value →
      window.Tracks target 0 0 (next value) (further (motion.move value))) :
    window.Tracks target 0 0 (first >>= next) (other >>= further) :=
  tracks_bind head tail (Nat.zero_le _) (Nat.zero_le _)

/-- The last token is taken by the second parser. -/
theorem tracks_closing {first other : Parse α} {next further : α → Parse β}
    (head : window.Tracks motion progress slack first other)
    (tail : ∀ value, motion.placed value →
      window.Tracks target 1 1 (next value) (further (motion.move value))) :
    window.Tracks target 1 1 (first >>= next) (other >>= further) :=
  tracks_bind head tail (Nat.le_add_left _ _) (Nat.le_add_left _ _)

/-- The last token is taken by the first parser. -/
theorem tracks_closed {first other : Parse α} {next further : α → Parse β}
    (head : window.Tracks motion 1 1 first other)
    (tail : ∀ value, motion.placed value →
      window.Tracks target 0 1 (next value) (further (motion.move value))) :
    window.Tracks target 1 1 (first >>= next) (other >>= further) :=
  tracks_bind head tail (Nat.le_refl _) (Nat.le_refl _)

/-- Nothing is taken behind the limit, but one may look there. -/
theorem tracks_trailing {first other : Parse α} {next further : α → Parse β}
    (head : window.Tracks motion progress 1 first other)
    (tail : ∀ value, motion.placed value →
      window.Tracks target 0 1 (next value) (further (motion.move value))) :
    window.Tracks target 0 1 (first >>= next) (other >>= further) :=
  tracks_bind head tail (Nat.le_refl _) (Nat.zero_le _)

/-! ## The cursor -/

/-- A look at the token under the cursor must not be behind the limit. -/
theorem tracks_current : window.Tracks window.tokens 0 0 current current := by
  intro cursor after token given
  obtain ⟨rfl, rfl⟩ := gives_current.mp given
  refine ⟨Nat.le_refl _, id, trivial, fun inside => ?_⟩
  exact gives_current.mpr ⟨(window.same _ inside).symm, rfl⟩

theorem tracks_currentKind : window.Tracks .still 0 0 currentKind currentKind := by
  refine tracks_within tracks_current ?_
  intro token _
  exact tracks_pure rfl trivial 0

theorem tracks_check {kinds : List Kind} :
    window.Tracks .still 0 0 (check kinds) (check kinds) := by
  refine tracks_within tracks_currentKind ?_
  intro kind _
  exact tracks_pure rfl trivial 0

/-- A token that is no end of input stands before the limit. -/
theorem lt_limit (window : Window) {cursor : Nat}
    (goesOn : (window.list.token cursor).kind ≠ .endOfInput) (inside : cursor ≤ window.limit) :
    cursor < window.limit := by
  refine Nat.lt_of_le_of_ne inside ?_
  rintro rfl
  exact goesOn window.ended

/-- A token is taken in both lists, unless the first one has ended there. -/
theorem tracks_advance : window.Tracks window.tokens 0 0 advance advance := by
  intro cursor after token given
  by_cases ended : (window.list.token cursor).kind = .endOfInput
  · -- at the end of input nothing is taken, but the end is not before the limit
    unfold advance at given
    rw [gives_current_bind, if_pos ended] at given
    obtain ⟨rfl, rfl⟩ := gives_pure.mp given
    exact ⟨Nat.le_refl _, id, trivial, fun inside => absurd ended (window.goesOn _ inside)⟩
  · obtain ⟨rfl, rfl⟩ := (gives_advance ended).mp given
    refine ⟨Nat.le_succ _, window.lt_limit ended, trivial, fun inside => ?_⟩
    have here := window.same cursor (Nat.lt_of_succ_lt inside)
    refine (gives_advance (by rw [here]; exact ended)).mpr ⟨here.symm, ?_⟩
    exact Nat.add_right_comm cursor 1 window.offset

/-- A token before the limit is seen in the other list too. -/
theorem visible_whole {cursor : Nat} {token : Token} {rest : List Token}
    (seen : window.list.visible cursor = token :: rest) (inside : cursor < window.limit) :
    window.whole.visible (cursor + window.offset) =
      token.relocate window.shift :: window.whole.visible (cursor + window.offset + 1) := by
  obtain ⟨here, goesOn, _⟩ := TokenList.token_of_visible seen
  have moved := window.same cursor inside
  rw [here] at moved
  rw [TokenList.visible_of_kind (by rw [moved]; exact goesOn), moved]

/-- A token that is asked for is no end of input, so it stands before the limit and may be the last
one there. -/
theorem tracks_expect {kind : Kind} (noEnd : kind ≠ .endOfInput) {demand : String} :
    window.Tracks window.tokens 1 1 (expect kind demand) (expect kind demand) := by
  intro cursor after token given
  obtain ⟨found, seen, rfl⟩ := (gives_expect noEnd).mp given
  obtain ⟨here, goesOn, _⟩ := TokenList.token_of_visible seen
  refine ⟨Nat.le_refl _, window.lt_limit (here ▸ goesOn), trivial, fun inside => ?_⟩
  rw [Nat.add_right_comm cursor 1 window.offset]
  exact (gives_expect noEnd).mpr ⟨found, visible_whole seen (Nat.lt_of_succ_lt_succ inside), rfl⟩

/-- A token that is taken if it fits. Whether it does is seen before the limit only; see
`tracks_accept_bind` for what holds at the limit. -/
theorem tracks_accept {kind : Kind} :
    window.Tracks window.tokens.option 0 0 (accept kind) (accept kind) := by
  refine tracks_within tracks_check ?_
  intro found _
  cases found with
  | true =>
    refine tracks_within tracks_advance ?_
    intro token _
    exact tracks_pure rfl (fun _ _ => trivial) 0
  | false => exact tracks_pure rfl (fun _ _ => trivial) 0

/-- The other list leaves more room for loops. -/
theorem tracks_budget_bind {next further : Nat → Parse α}
    (tail : ∀ rounds more, rounds ≤ more →
      window.Tracks motion progress slack (next rounds) (further more)) :
    window.Tracks motion progress slack (budget >>= next) (budget >>= further) := by
  intro cursor after result given
  rw [gives_budget_bind] at given
  obtain ⟨moves, stays, placed, reads⟩ := tail _ _ (Nat.succ_le_succ window.room) _ _ _ given
  exact ⟨moves, stays, placed, fun inside => gives_budget_bind.mpr (reads inside)⟩

/-- Of two loops the second may have more rounds than the first: what holds if there are none left,
and of one more on both sides, holds of both. -/
theorem rounds_induction {motive : (rounds more : Nat) → rounds ≤ more → Prop}
    (none : ∀ more, motive 0 more (Nat.zero_le more))
    (next : ∀ rounds more (enough : rounds ≤ more), motive rounds more enough →
      motive (rounds + 1) (more + 1) (Nat.succ_le_succ enough))
    (rounds more : Nat) (enough : rounds ≤ more) : motive rounds more enough := by
  induction rounds generalizing more with
  | zero => exact none more
  | succ rounds ih =>
    cases more with
    | zero => cases enough
    | succ more => exact next rounds more _ (ih more (Nat.le_of_succ_le_succ enough))

/-! ## Lists -/

theorem tracks_commaSeparated {item other : Parse α} (items : window.Tracks motion 0 0 item other) :
    ∀ {rounds more : Nat}, rounds ≤ more →
      window.Tracks motion.list 0 0 (commaSeparated item rounds) (commaSeparated other more) := by
  intro rounds more enough
  induction rounds, more, enough using rounds_induction with
  | none more => exact tracks_outOfBudget
  | next rounds more _ ih =>
    refine tracks_within items ?_
    intro value _
    refine tracks_within tracks_accept ?_
    intro found _
    cases found with
    | some comma =>
      refine tracks_within ih ?_
      intro values _
      exact tracks_pure rfl trivial 0
    | none => exact tracks_pure rfl trivial 0

/-- With its closing symbol a list may end at the limit. -/
theorem tracks_commaList {item other : Parse α} (items : window.Tracks motion 0 0 item other)
    {closing : Symbol} {demand : String} :
    window.Tracks motion.list 1 1 (commaList item closing demand)
      (commaList other closing demand) := by
  refine tracks_closing tracks_check ?_
  intro closed _
  -- with items or without, the closing symbol comes last
  have ending : ∀ values : List α, motion.list.placed values → window.Tracks motion.list 1 1
      (expect (.symbol closing) demand >>= fun _ => pure values)
      (expect (.symbol closing) demand >>= fun _ => pure (motion.list.move values)) := by
    intro values _
    refine tracks_closed (tracks_expect (by simp)) ?_
    intro _ _
    exact tracks_pure rfl trivial 1
  cases closed with
  | true => exact tracks_closing (tracks_pure rfl trivial 0) ending
  | false =>
    refine tracks_budget_bind fun rounds more enough => ?_
    exact tracks_closing (tracks_commaSeparated items enough) ending

/-! ## Expressions -/

section

variable {nested other : Parse Expr}
  (reads : window.Tracks window.expressions 0 0 nested other)

include reads

theorem tracks_property :
    window.Tracks window.expressions.entry 0 0 (property nested) (property other) := by
  refine tracks_within (tracks_expect (by decide)) fun key _ => ?_
  refine tracks_within (tracks_expect (by decide)) fun _ _ => ?_
  refine tracks_within reads fun value _ => ?_
  exact tracks_pure rfl trivial 0

theorem tracks_arguments :
    window.Tracks window.expressions.list 1 1 (arguments nested) (arguments other) :=
  tracks_commaList reads

/-- An operand. A node has the position of the token under the cursor; inside parentheses the
position of the inner expression stays that of the node. -/
theorem tracks_primary :
    window.Tracks window.expressions 0 0 (primary nested) (primary other) := by
  refine tracks_within tracks_current fun token _ => ?_
  obtain ⟨kind, text, position⟩ := token
  -- eight forms are one token each
  have literal : ∀ e : Expr, (e.relocate window.shift).position = window.shift e.position →
      window.Tracks window.expressions 0 0 (advance >>= fun _ => pure e)
        (advance >>= fun _ => pure (e.relocate window.shift)) := by
    intro e placed
    refine tracks_within tracks_advance fun _ _ => ?_
    exact tracks_pure rfl placed 0
  dsimp only [tokens, Token.relocate]
  split
  · exact literal (.number position (Numeral.value text)) rfl
  · exact literal (.string position text) rfl
  · exact literal (.boolean position true) rfl
  · exact literal (.boolean position false) rfl
  · exact literal (.null position) rfl
  · exact literal (.null position) rfl
  · exact literal (.nan position) rfl
  · exact literal (.identifier position text) rfl
  · refine tracks_within tracks_advance fun _ _ => ?_
    refine tracks_within (tracks_commaList reads) fun elements _ => ?_
    refine tracks_pure ?_ rfl 0
    exact congrArg (Expr.array _) (relocateElements_eq_map ..).symm
  · refine tracks_within tracks_advance fun _ _ => ?_
    refine tracks_within (tracks_commaList (tracks_property reads)) fun properties _ => ?_
    refine tracks_pure ?_ rfl 0
    exact congrArg (Expr.object _) (relocateProperties_eq_map ..).symm
  · refine tracks_within tracks_advance fun _ _ => ?_
    refine tracks_within reads fun inner placed => ?_
    refine tracks_within (tracks_expect (by decide)) fun _ _ => ?_
    exact tracks_pure rfl placed 0
  · exact tracks_throw

/-- A member, key or call behind an operand. The node made of both has the position of the operand,
so that must move as the operand does. -/
theorem tracks_link {inner : Expr} (placed : window.expressions.placed inner) :
    window.Tracks window.expressions.option 0 0 (link nested inner)
      (link other (inner.relocate window.shift)) := by
  have made : ∀ outer moved : Expr, moved = outer.relocate window.shift →
      (outer.relocate window.shift).position = window.shift outer.position →
      window.Tracks window.expressions.option 0 0 (pure (some outer)) (pure (some moved)) := by
    intro outer moved same placedOuter
    refine tracks_pure (congrArg some same) ?_ 0
    rintro value found
    cases found
    exact placedOuter
  refine tracks_within tracks_currentKind fun kind _ => ?_
  dsimp only [Motion.still, id]
  split
  -- the new node has the position of the expression before it
  · refine tracks_within tracks_advance fun _ _ => ?_
    refine tracks_within (tracks_expect (by decide)) fun name _ => ?_
    exact made _ _ (congrArg (Expr.member · _ _) placed) rfl
  · refine tracks_within tracks_advance fun _ _ => ?_
    refine tracks_within reads fun key _ => ?_
    exact made _ _ (congrArg (Expr.computed · _ _) placed) rfl
  · refine tracks_within tracks_advance fun _ _ => ?_
    refine tracks_within reads fun key _ => ?_
    refine tracks_within (tracks_expect (by decide)) fun _ _ => ?_
    exact made _ _ (congrArg (Expr.computed · _ _) placed) rfl
  · refine tracks_within tracks_advance fun _ _ => ?_
    refine tracks_within (tracks_arguments reads) fun values _ => ?_
    refine made (.call inner.position inner values) _ ?_ rfl
    exact congrArg₂ (Expr.call · _ ·) placed (relocateElements_eq_map ..).symm
  · refine tracks_pure rfl ?_ 0
    intro value found
    cases found

theorem tracks_links : ∀ {rounds more : Nat}, rounds ≤ more → ∀ {inner : Expr},
    window.expressions.placed inner →
    window.Tracks window.expressions 0 0 (links nested rounds inner)
      (links other more (inner.relocate window.shift)) := by
  intro rounds more enough
  induction rounds, more, enough using rounds_induction with
  | none more => exact fun _ => tracks_outOfBudget
  | next rounds more _ ih =>
    intro inner placed
    refine tracks_within (tracks_link reads placed) fun found placedFound => ?_
    cases found with
    | some outer => exact ih (placedFound outer rfl)
    | none => exact tracks_pure rfl placed 0

theorem tracks_chain : window.Tracks window.expressions 0 0 (chain nested) (chain other) := by
  refine tracks_budget_bind fun rounds more enough => ?_
  refine tracks_within (tracks_primary reads) fun inner placed => ?_
  exact tracks_links reads enough placed

theorem tracks_unaryUpTo : ∀ {rounds more : Nat}, rounds ≤ more →
    window.Tracks window.expressions 0 0 (unaryUpTo nested rounds) (unaryUpTo other more) := by
  intro rounds more enough
  induction rounds, more, enough using rounds_induction with
  | none more => exact tracks_outOfBudget
  | next rounds more _ ih =>
    refine tracks_within tracks_current fun token _ => ?_
    dsimp only [tokens, Token.relocate]
    split
    · refine tracks_within tracks_advance fun _ _ => ?_
      refine tracks_within ih fun operand _ => ?_
      exact tracks_pure rfl rfl 0
    · exact tracks_chain reads

theorem tracks_unary : window.Tracks window.expressions 0 0 (unary nested) (unary other) :=
  tracks_budget_bind fun _ _ enough => tracks_unaryUpTo reads enough

end

/-- Operators of one level from left to right. As with links, the position is that of the left
operand. -/
theorem tracks_operators {level : Level} {operand other : Parse Expr}
    (reads : window.Tracks window.expressions 0 0 operand other) :
    ∀ {rounds more : Nat}, rounds ≤ more → ∀ {left : Expr}, window.expressions.placed left →
      window.Tracks window.expressions 0 0 (operators level operand rounds left)
        (operators level other more (left.relocate window.shift)) := by
  intro rounds more enough
  induction rounds, more, enough using rounds_induction with
  | none more => exact fun _ => tracks_outOfBudget
  | next rounds more _ ih =>
    intro left placed
    refine tracks_within tracks_currentKind fun kind _ => ?_
    dsimp only [Motion.still, id]
    split
    · rename_i operator _
      refine tracks_within tracks_advance fun _ _ => ?_
      refine tracks_within reads fun right _ => ?_
      have next : window.expressions.placed (.binary left.position operator left right) := rfl
      -- the node moved is the node made of the moved operands, at the moved position of the left
      -- one
      have same : Expr.binary (left.relocate window.shift).position operator
          (left.relocate window.shift) (right.relocate window.shift) =
          (Expr.binary left.position operator left right).relocate window.shift :=
        congrArg (Expr.binary · _ _ _) placed
      have rest := ih next
      rw [← same] at rest
      exact rest
    · exact tracks_pure rfl placed 0

theorem tracks_binary {nested other : Parse Expr}
    (reads : window.Tracks window.expressions 0 0 nested other) (levels : List Level) :
    window.Tracks window.expressions 0 0 (binary nested levels) (binary other levels) := by
  induction levels with
  | nil => exact tracks_unary reads
  | cons level tighter ih =>
    refine tracks_within ih fun left placed => ?_
    exact tracks_budget_bind fun _ _ enough => tracks_operators ih enough placed

theorem tracks_expressionUpTo : ∀ {depth more : Nat}, depth ≤ more →
    window.Tracks window.expressions 0 0 (expressionUpTo depth) (expressionUpTo more) := by
  intro depth more enough
  induction depth, more, enough using rounds_induction with
  | none more => exact tracks_outOfBudget
  | next depth more _ ih => exact tracks_binary ih levels

/-- An expression that ends before the limit is read alike; at the limit an operator might follow in
the other list. -/
theorem tracks_expression : window.Tracks window.expressions 0 0 expression expression :=
  tracks_budget_bind fun _ _ enough => tracks_expressionUpTo enough

/-! ## Blocks and declarations -/

section

variable {nested other : Parse Stmt} (reads : window.Tracks window.statements 1 1 nested other)

include reads

theorem tracks_statementsUntil {ends : List Kind} : ∀ {rounds more : Nat}, rounds ≤ more →
    window.Tracks window.statements.list 0 0 (statementsUntil nested ends rounds)
      (statementsUntil other ends more) := by
  intro rounds more enough
  induction rounds, more, enough using rounds_induction with
  | none more => exact tracks_outOfBudget
  | next rounds more _ ih =>
    refine tracks_within tracks_check fun ended _ => ?_
    cases ended with
    | true => exact tracks_pure rfl trivial 0
    | false =>
      refine tracks_within reads fun first _ => ?_
      refine tracks_within ih fun rest _ => ?_
      exact tracks_pure rfl trivial 0

/-- A block ends with its brace, so it may end at the limit. -/
theorem tracks_block {what : String} :
    window.Tracks window.statements.list 1 1 (block nested what) (block other what) := by
  refine tracks_closing (tracks_expect (by decide)) fun _ _ => ?_
  refine tracks_budget_bind fun rounds more enough => ?_
  refine tracks_closing (tracks_statementsUntil reads enough) fun body _ => ?_
  refine tracks_closed (tracks_expect (by decide)) fun _ _ => ?_
  exact tracks_pure rfl trivial 1

end

theorem tracks_declaration : window.Tracks window.statements 0 0 declaration declaration := by
  refine tracks_within tracks_advance fun keyword _ => ?_
  refine tracks_within (tracks_expect (by decide)) fun name _ => ?_
  refine tracks_within (tracks_expect (by decide)) fun _ _ => ?_
  refine tracks_within tracks_expression fun value _ => ?_
  exact tracks_pure rfl trivial 0

/-! ## Parsers that may decline -/

/-- What a parser reads if it does not decline is tracked up to the limit. -/
def TracksSome (window : Window) (motion : Motion α) (parser other : Parse (Option α)) : Prop :=
  ∀ (cursor after : Nat) (result : α), parser.Gives window.list cursor (some result) after →
    window.Tracked motion.option 1 1 other cursor after (some result)

/-- If a parser is declined, then so it is in the other list, as long as what is read instead stays
within the window. -/
theorem tracks_attempt {production alternative : Parse (Option α)}
    {next further : Option α → Parse α} (taken : window.TracksSome motion production alternative)
    (kept : ∀ value, next (some value) = pure value ∧ further (some value) = pure value)
    (declined : ∀ {cursor middle after result}, production.Gives window.list cursor none middle →
      (next none).Gives window.list cursor result after → after < window.limit + 1 →
      ∃ place, alternative.Gives window.whole (cursor + window.offset) none place)
    (left : window.Tracks motion 1 1 (next none) (further none)) :
    window.Tracks motion 1 1 (attempt production >>= next) (attempt alternative >>= further) := by
  intro cursor after result given
  obtain ⟨found, middle, attempted, rest⟩ := gives_bind.mp given
  cases found with
  | some value =>
    rw [(kept value).1] at rest
    obtain ⟨rfl, rfl⟩ := gives_pure.mp rest
    obtain ⟨moves, stays, placed, reads⟩ := taken _ _ _ (gives_attempt_some.mp attempted)
    refine ⟨moves, stays, placed _ rfl, fun inside => ?_⟩
    refine gives_bind.mpr ⟨_, _, gives_attempt_some.mpr (reads inside), ?_⟩
    rw [(kept _).2]
    exact gives_pure.mpr ⟨rfl, rfl⟩
  | none =>
    obtain ⟨rfl, place, refused⟩ := gives_attempt_none.mp attempted
    obtain ⟨moves, stays, placed, reads⟩ := left _ _ _ rest
    refine ⟨moves, stays, placed, fun inside => ?_⟩
    exact gives_bind.mpr ⟨_, _, gives_attempt_none.mpr ⟨rfl, declined refused rest inside⟩,
      reads inside⟩

/-! ## Assignments -/

theorem assignmentTo?_relocate {position : Position} {target value : Expr} {s : Stmt}
    (found : assignmentTo? position target value = some s) (shift : Position → Position) :
    assignmentTo? (shift position) (target.relocate shift) (value.relocate shift) =
      some (s.relocate shift) := by
  unfold assignmentTo? at found
  split at found <;> cases found <;> rfl

/-- What stands behind the equals sign of an assignment. -/
theorem tracks_assigned {start : Token} {target : Expr} :
    window.Tracks window.statements.option 1 1
      (do
        let value ← expression
        let _ ← expect (.symbol .semicolon) "Expected ';' after assignment"
        match assignmentTo? start.position target value with
        | some statement => return some statement
        | none => throw (.invalidTarget start.position.line))
      (do
        let value ← expression
        let _ ← expect (.symbol .semicolon) "Expected ';' after assignment"
        match assignmentTo? (window.shift start.position) (target.relocate window.shift) value with
        | some statement => return some statement
        | none => throw (.invalidTarget (window.shift start.position).line)) := by
  refine tracks_closing tracks_expression fun value _ => ?_
  refine tracks_closed (tracks_expect (by decide)) fun _ _ => ?_
  cases found : assignmentTo? start.position target value with
  | some s =>
    have moved := assignmentTo?_relocate found window.shift
    dsimp only [expressions]
    rw [moved]
    exact tracks_pure rfl (fun _ _ => trivial) 1
  | none => exact tracks_throw

/-- An assignment that is read within the window, or declined there. -/
theorem tracks_assignment : window.Tracks window.statements.option 0 0 assignment assignment := by
  refine tracks_within tracks_current fun start _ => ?_
  refine tracks_within tracks_expression fun target _ => ?_
  refine tracks_within tracks_accept fun found _ => ?_
  cases found with
  | none => exact tracks_pure rfl (fun _ _ => trivial) 0
  | some equals => exact tracks_assigned.weaken (Nat.zero_le _) (Nat.zero_le _)

/-- An assignment takes the semicolon behind it, which may be the last token. -/
theorem tracksSome_assignment : window.TracksSome window.statements assignment assignment := by
  intro cursor after s given
  unfold assignment at given
  rw [gives_current_bind] at given
  obtain ⟨target, first, taken, rest⟩ := gives_bind.mp given
  obtain ⟨found, second, accepted, rest⟩ := gives_bind.mp rest
  obtain ⟨moves, stays, _, reads⟩ := tracks_expression _ _ _ taken
  obtain ⟨movesOn, staysOn, _, accepts⟩ := tracks_accept _ _ _ accepted
  cases found with
  | none => cases (gives_pure.mp rest).1
  | some equals =>
    obtain ⟨takes, ends, _, assigns⟩ := tracks_assigned _ _ _ rest
    refine ⟨by omega, by omega, fun _ _ => trivial, fun inside => ?_⟩
    unfold assignment
    rw [gives_current_bind, window.same cursor (by omega)]
    exact gives_bind.mpr ⟨_, _, reads (by omega), gives_bind.mpr
      ⟨_, _, accepts (by omega), assigns inside⟩⟩

theorem tracks_expressionStatement :
    window.Tracks window.statements 1 1 expressionStatement expressionStatement := by
  refine tracks_closing tracks_expression fun value _ => ?_
  refine tracks_closed (tracks_expect (by decide)) fun _ _ => ?_
  exact tracks_pure rfl trivial 1

/-- Where an assignment is declined, the expression that is read instead ends at the same place. -/
theorem exists_declined_assignment {cursor middle after : Nat} {s : Stmt}
    (declined : assignment.Gives window.list cursor none middle)
    (given : expressionStatement.Gives window.list cursor s after)
    (inside : after < window.limit + 1) :
    ∃ place, assignment.Gives window.whole (cursor + window.offset) none place := by
  -- both read the same expression first, and a semicolon stands behind the one that is kept
  have ends : middle < after := by
    unfold assignment at declined
    rw [gives_current_bind] at declined
    obtain ⟨target, first, taken, behind⟩ := gives_bind.mp declined
    obtain ⟨found, second, accepted, rest⟩ := gives_bind.mp behind
    clear behind
    unfold expressionStatement at given
    obtain ⟨value, other, takenAgain, last⟩ := gives_bind.mp given
    obtain ⟨_, semicolon, _⟩ := gives_bind_pure.mp last
    obtain ⟨_, _, rfl⟩ := (gives_expect (by decide)).mp semicolon
    cases taken.symm.trans takenAgain
    cases found with
    | none =>
      obtain ⟨_, rfl⟩ := (gives_accept_none (by decide)).mp accepted
      obtain ⟨_, rfl⟩ := gives_pure.mp rest
      exact Nat.lt_succ_self _
    | some equals =>
      obtain ⟨value, third, _, rest⟩ := gives_bind.mp rest
      obtain ⟨_, fourth, _, rest⟩ := gives_bind.mp rest
      split at rest
      · cases (gives_pure.mp rest).1
      · exact absurd rest gives_throw
  exact ⟨_, (tracks_assignment _ _ _ declined).reads (by omega)⟩

/-! ## Procedures -/

/-- Parameters are compared by name, and names do not move. -/
theorem tracks_parametersFrom {procedure : String} : ∀ {rounds more : Nat}, rounds ≤ more →
    ∀ {seen : List String}, window.Tracks .still 0 0 (parametersFrom procedure seen rounds)
      (parametersFrom procedure seen more) := by
  intro rounds more enough
  induction rounds, more, enough using rounds_induction with
  | none more => exact tracks_outOfBudget
  | next rounds more _ ih =>
    intro seen
    refine tracks_within (tracks_expect (by decide)) fun parameter _ => ?_
    dsimp only [tokens, Token.relocate]
    split
    · exact tracks_throw
    · refine tracks_within tracks_accept fun found _ => ?_
      cases found with
      | some comma => exact ih
      | none => exact tracks_pure rfl trivial 0

theorem tracks_returns : window.Tracks window.statements 1 1 returns returns := by
  refine tracks_closing (tracks_expect (by decide)) fun keyword _ => ?_
  refine tracks_closing tracks_expression fun value _ => ?_
  refine tracks_closed (tracks_expect (by decide)) fun _ _ => ?_
  exact tracks_pure rfl trivial 1

theorem tracks_condition {keyword : String} :
    window.Tracks window.expressions 1 1 (condition keyword) (condition keyword) := by
  refine tracks_closing (tracks_expect (by decide)) fun _ _ => ?_
  refine tracks_closing tracks_expression fun value placed => ?_
  refine tracks_closed (tracks_expect (by decide)) fun _ _ => ?_
  exact tracks_pure rfl placed 1

section

variable {nested other : Parse Stmt} (reads : window.Tracks window.statements 1 1 nested other)

include reads

theorem tracks_procedure :
    window.Tracks window.statements 1 1 (procedure nested) (procedure other) := by
  refine tracks_closing (tracks_expect (by decide)) fun keyword _ => ?_
  refine tracks_closing (tracks_expect (by decide)) fun name _ => ?_
  refine tracks_closing (tracks_expect (by decide)) fun _ _ => ?_
  refine tracks_closing tracks_check fun closed _ => ?_
  -- what stands behind the parameters, or behind the parenthesis at once
  have rest : ∀ parameters : List String, (Motion.still : Motion (List String)).placed parameters →
      window.Tracks window.statements 1 1
      (do
        let _ ← expect (.symbol .rightParen) "Expected ')' after parameters"
        let body ← block nested "procedure body"
        return .procedure keyword.position name.text parameters body)
      (do
        let _ ← expect (.symbol .rightParen) "Expected ')' after parameters"
        let body ← block other "procedure body"
        return .procedure (window.shift keyword.position) name.text parameters body) := by
    intro parameters _
    refine tracks_closing (tracks_expect (by decide)) fun _ _ => ?_
    refine tracks_closed (tracks_block reads) fun body _ => ?_
    refine tracks_pure ?_ trivial 1
    exact congrArg (Stmt.procedure _ _ _) (relocateBlock_eq_map ..).symm
  cases closed with
  | true => exact tracks_closing (tracks_pure rfl trivial 0) rest
  | false =>
    refine tracks_budget_bind fun rounds more enough => ?_
    exact tracks_closing (tracks_parametersFrom enough) rest

end

/-! ## Conditionals -/

/-- Behind the limit no branch of a conditional follows in the other list. -/
def NoBranch (window : Window) : Prop :=
  ∀ kind, kind = .keyword .elif ∨ kind = .keyword .otherwise →
    (window.whole.token (window.limit + window.offset)).kind ≠ kind

/-- A token that does not stand behind the limit is taken, or not, in both lists alike. -/
theorem tracks_accept_bind {kind : Kind} (noEnd : kind ≠ .endOfInput)
    (edge : (window.whole.token (window.limit + window.offset)).kind ≠ kind)
    {next further : Option Token → Parse α}
    (taken : ∀ token, window.Tracks motion 0 1 (next (some token))
      (further (some (token.relocate window.shift))))
    (left : window.Tracks motion 0 1 (next none) (further none)) :
    window.Tracks motion 0 1 (accept kind >>= next) (accept kind >>= further) := by
  intro cursor after result given
  obtain ⟨found, middle, accepted, rest⟩ := gives_bind.mp given
  cases found with
  | some token =>
    obtain ⟨same, seen, rfl⟩ := (gives_accept_some noEnd).mp accepted
    obtain ⟨here, goesOn, _⟩ := TokenList.token_of_visible seen
    obtain ⟨moves, stays, placed, reads⟩ := taken token _ _ _ rest
    refine ⟨by omega, fun inside => stays (window.lt_limit (here ▸ goesOn) inside), placed,
      fun inside => ?_⟩
    have readsOn := reads inside
    rw [Nat.add_right_comm cursor 1 window.offset] at readsOn
    have moved : (token.relocate window.shift).kind = kind := same
    exact gives_bind.mpr ⟨_, _, (gives_accept_some noEnd).mpr
      ⟨moved, visible_whole seen (by omega), rfl⟩, readsOn⟩
  | none =>
    obtain ⟨different, rfl⟩ := (gives_accept_none noEnd).mp accepted
    obtain ⟨moves, stays, placed, reads⟩ := left _ _ _ rest
    refine ⟨moves, stays, placed, fun inside => ?_⟩
    -- before the limit the two lists have the same tokens; at the limit it is `edge` that says so
    have differs : (window.whole.token (middle + window.offset)).kind ≠ kind := by
      rcases Nat.lt_or_ge middle window.limit with before | reached
      · rw [window.same middle before]
        exact different
      · have last : middle = window.limit := by omega
        rw [last]
        exact edge
    exact gives_bind.mpr ⟨_, _, (gives_accept_none noEnd).mpr ⟨differs, rfl⟩, reads inside⟩

section

variable {nested other : Parse Stmt} (reads : window.Tracks window.statements 1 1 nested other)
  (edge : window.NoBranch)

include reads edge

/-- The branches of a conditional. At the limit there are no more of them in either list: in the
first it has ended, in the other no branch follows. -/
theorem tracks_fallback : ∀ {rounds more : Nat}, rounds ≤ more →
    window.Tracks window.fallbacks 0 1 (fallback nested rounds) (fallback other more) := by
  intro rounds more enough
  induction rounds, more, enough using rounds_induction with
  | none more => exact tracks_outOfBudget
  | next rounds more _ ih =>
    refine tracks_accept_bind (by decide) (edge _ (.inl rfl)) ?_ ?_
    · intro keyword
      refine tracks_trailing tracks_condition fun test _ => ?_
      refine tracks_trailing (tracks_block reads) fun body _ => ?_
      refine tracks_trailing ih fun rest _ => ?_
      refine tracks_pure ?_ trivial 1
      exact congrArg (Fallback.elif _ _ · _) (relocateBlock_eq_map ..).symm
    · refine tracks_accept_bind (by decide) (edge _ (.inr rfl)) ?_ ?_
      · intro keyword
        refine tracks_trailing (tracks_block reads) fun body _ => ?_
        refine tracks_pure ?_ trivial 1
        exact congrArg Fallback.block (relocateBlock_eq_map ..).symm
      · exact tracks_pure rfl trivial 1

/-- A conditional is the one statement that looks behind its last token. -/
theorem tracks_incase : window.Tracks window.statements 1 1 (incase nested) (incase other) := by
  refine tracks_closing (tracks_expect (by decide)) fun keyword _ => ?_
  refine tracks_closing tracks_condition fun test _ => ?_
  refine tracks_closed (tracks_block reads) fun body _ => ?_
  refine tracks_budget_bind fun rounds more enough => ?_
  refine tracks_trailing (tracks_fallback reads edge enough) fun rest _ => ?_
  refine tracks_pure ?_ trivial 1
  exact congrArg (Stmt.incase _ _ · _) (relocateBlock_eq_map ..).symm

end

/-! ## Loops -/

section

variable {nested other : Parse Stmt} (reads : window.Tracks window.statements 1 1 nested other)

include reads

/-- What stands behind `through`. -/
theorem tracks_throughBody {position : Position} {name binding : Token} :
    window.Tracks window.statements.option 1 1
      (do
        let iterable ← expression
        let _ ← expect (.symbol .rightParen) "Expected ')' after iterable"
        let body ← block nested "loop body"
        return some <| .through position name.text
          (decide (binding.kind = .keyword .constant)) iterable body)
      (do
        let iterable ← expression
        let _ ← expect (.symbol .rightParen) "Expected ')' after iterable"
        let body ← block other "loop body"
        return some <| .through (window.shift position) name.text
          (decide (binding.kind = .keyword .constant)) iterable body) := by
  refine tracks_closing tracks_expression fun iterable _ => ?_
  refine tracks_closing (tracks_expect (by decide)) fun _ _ => ?_
  refine tracks_closed (tracks_block reads) fun body _ => ?_
  refine tracks_pure ?_ (fun _ _ => trivial) 1
  exact congrArg (fun body => some (Stmt.through _ _ _ _ body)) (relocateBlock_eq_map ..).symm

theorem tracksSome_throughLoop {position : Position} :
    window.TracksSome window.statements (throughLoop nested position)
      (throughLoop other (window.shift position)) := by
  intro cursor after s given
  unfold throughLoop at given
  obtain ⟨binding, first, taken, rest⟩ := gives_bind.mp given
  obtain ⟨found, second, accepted, rest⟩ := gives_bind.mp rest
  obtain ⟨moves, stays, _, takes⟩ := tracks_advance _ _ _ taken
  obtain ⟨movesOn, staysOn, _, accepts⟩ := tracks_accept _ _ _ accepted
  cases found with
  | none => cases (gives_pure.mp rest).1
  | some name =>
    obtain ⟨word, third, wordAccepted, rest⟩ := gives_bind.mp rest
    obtain ⟨movesFar, staysFar, _, acceptsWord⟩ := tracks_accept _ _ _ wordAccepted
    cases word with
    | none => cases (gives_pure.mp rest).1
    | some through =>
      obtain ⟨ends, last, _, loops⟩ := tracks_throughBody reads _ _ _ rest
      refine ⟨by omega, by omega, fun _ _ => trivial, fun inside => ?_⟩
      exact gives_bind.mpr ⟨_, _, takes (by omega), gives_bind.mpr ⟨_, _, accepts (by omega),
        gives_bind.mpr ⟨_, _, acceptsWord (by omega), loops inside⟩⟩⟩

/-- A loop through an array that is read within the window, or declined there. -/
theorem tracks_throughLoop {position : Position} :
    window.Tracks window.statements.option 0 0 (throughLoop nested position)
      (throughLoop other (window.shift position)) := by
  refine tracks_within tracks_advance fun binding _ => ?_
  refine tracks_within tracks_accept fun found _ => ?_
  cases found with
  | none => exact tracks_pure rfl (fun _ _ => trivial) 0
  | some name =>
    refine tracks_within tracks_accept fun word _ => ?_
    cases word with
    | none => exact tracks_pure rfl (fun _ _ => trivial) 0
    | some through => exact (tracks_throughBody reads).weaken (Nat.zero_le _) (Nat.zero_le _)

/-- What stands behind the declaration of a counting loop. -/
theorem tracks_countingBody {position : Position} {init : Stmt} :
    window.Tracks window.statements 1 1
      (do
        let _ ← expect (.symbol .semicolon) "Expected ';' after loop initialization"
        let test ← expression
        let _ ← expect (.symbol .semicolon) "Expected ';' after loop condition"
        let target ← expect .identifier "Expected variable name in update"
        let _ ← expect (.symbol .equals) "Expected '=' in update"
        let update ← expression
        let _ ← expect (.symbol .rightParen) "Expected ')' after loop header"
        let body ← block nested "loop body"
        return .drift position init test (.assign target.position target.text update) body)
      (do
        let _ ← expect (.symbol .semicolon) "Expected ';' after loop initialization"
        let test ← expression
        let _ ← expect (.symbol .semicolon) "Expected ';' after loop condition"
        let target ← expect .identifier "Expected variable name in update"
        let _ ← expect (.symbol .equals) "Expected '=' in update"
        let update ← expression
        let _ ← expect (.symbol .rightParen) "Expected ')' after loop header"
        let body ← block other "loop body"
        return .drift (window.shift position) (init.relocate window.shift) test
          (.assign target.position target.text update) body) := by
  refine tracks_closing (tracks_expect (by decide)) fun _ _ => ?_
  refine tracks_closing tracks_expression fun test _ => ?_
  refine tracks_closing (tracks_expect (by decide)) fun _ _ => ?_
  refine tracks_closing (tracks_expect (by decide)) fun target _ => ?_
  refine tracks_closing (tracks_expect (by decide)) fun _ _ => ?_
  refine tracks_closing tracks_expression fun update _ => ?_
  refine tracks_closing (tracks_expect (by decide)) fun _ _ => ?_
  refine tracks_closed (tracks_block reads) fun body _ => ?_
  refine tracks_pure ?_ trivial 1
  exact congrArg (Stmt.drift _ _ _ _) (relocateBlock_eq_map ..).symm

theorem tracks_countingLoop {position : Position} :
    window.Tracks window.statements 1 1 (countingLoop nested position)
      (countingLoop other (window.shift position)) :=
  tracks_closing tracks_declaration fun _ _ => tracks_countingBody reads

/-- A loop through an array is declined at its third token at the latest, and a counting loop is
longer. -/
theorem exists_declined_throughLoop {position : Position} {cursor middle after : Nat} {s : Stmt}
    (declined : (throughLoop nested position).Gives window.list cursor none middle)
    (given : (countingLoop nested position).Gives window.list cursor s after)
    (inside : after < window.limit + 1) :
    ∃ place, (throughLoop other (window.shift position)).Gives window.whole
      (cursor + window.offset) none place := by
  -- a declaration has a name and an equals sign behind its keyword, and the loop goes on behind
  -- that
  have ends : middle < after := by
    unfold countingLoop at given
    obtain ⟨init, second, declares, rest⟩ := gives_bind.mp given
    have longer := (tracks_countingBody reads _ _ _ rest).moves
    unfold declaration at declares
    obtain ⟨keyword, first, taken, more⟩ := gives_bind.mp declares
    obtain ⟨name, nameKind, nameSeen, more⟩ := (gives_expect_bind (by decide)).mp more
    obtain ⟨equals, equalsKind, equalsSeen, more⟩ := (gives_expect_bind (by decide)).mp more
    obtain ⟨value, valued, _⟩ := gives_bind_pure.mp more
    have further := (tracks_expression _ _ _ valued).moves
    clear given more rest
    unfold throughLoop at declined
    obtain ⟨binding, other, takenAgain, behind⟩ := gives_bind.mp declined
    cases taken.symm.trans takenAgain
    obtain ⟨found, third, accepted, last⟩ := gives_bind.mp behind
    cases found with
    | none =>
      obtain ⟨_, rfl⟩ := (gives_accept_none (by decide)).mp accepted
      obtain ⟨_, rfl⟩ := gives_pure.mp last
      omega
    | some name =>
      obtain ⟨_, _, rfl⟩ := (gives_accept_some (by decide)).mp accepted
      obtain ⟨word, fourth, wordAccepted, end_⟩ := gives_bind.mp last
      cases word with
      | none =>
        obtain ⟨_, rfl⟩ := (gives_accept_none (by decide)).mp wordAccepted
        obtain ⟨_, rfl⟩ := gives_pure.mp end_
        omega
      | some through =>
        -- behind `through` nothing is declined
        obtain ⟨iterable, _, _, end_⟩ := gives_bind.mp end_
        obtain ⟨_, _, _, end_⟩ := gives_bind.mp end_
        obtain ⟨_, _, same⟩ := gives_bind_pure.mp end_
        cases same
  exact ⟨_, (tracks_throughLoop reads _ _ _ declined).reads (by omega)⟩

theorem tracks_drift : window.Tracks window.statements 1 1 (drift nested) (drift other) := by
  refine tracks_closing (tracks_expect (by decide)) fun keyword _ => ?_
  refine tracks_closing (tracks_expect (by decide)) fun _ _ => ?_
  refine tracks_closing tracks_check fun declares _ => ?_
  cases declares with
  | false => exact tracks_closing tracks_current fun _ _ _ _ _ given => absurd given gives_throw
  | true =>
    exact tracks_attempt (tracksSome_throughLoop reads) (fun _ => ⟨rfl, rfl⟩)
      (fun declined given inside => exists_declined_throughLoop reads declined given inside)
      (tracks_countingLoop reads)

end

/-! ## Statements -/

section

variable {nested other : Parse Stmt} (reads : window.Tracks window.statements 1 1 nested other)
  (edge : window.NoBranch)

include reads edge

theorem tracks_statementWith :
    window.Tracks window.statements 1 1 (statementWith nested) (statementWith other) := by
  -- a declaration has no semicolon of its own, since a loop starts with one too
  have declares : window.Tracks window.statements 1 1
      (declaration >>= fun statement =>
        expect (.symbol .semicolon) "Expected ';' after variable declaration" >>= fun _ =>
          pure statement)
      (declaration >>= fun statement =>
        expect (.symbol .semicolon) "Expected ';' after variable declaration" >>= fun _ =>
          pure statement) := by
    refine tracks_closing tracks_declaration fun statement _ => ?_
    refine tracks_closed (tracks_expect (by decide)) fun _ _ => ?_
    exact tracks_pure rfl trivial 1
  refine tracks_closing tracks_current fun token _ => ?_
  obtain ⟨kind, text, position⟩ := token
  dsimp only [tokens, Token.relocate]
  split
  · exact declares
  · exact declares
  · exact tracks_procedure reads
  · exact tracks_returns
  · refine tracks_closing tracks_advance fun _ _ => ?_
    refine tracks_closed (tracks_expect (by decide)) fun _ _ => ?_
    exact tracks_pure rfl trivial 1
  · refine tracks_closing tracks_advance fun _ _ => ?_
    refine tracks_closed (tracks_expect (by decide)) fun _ _ => ?_
    exact tracks_pure rfl trivial 1
  · exact tracks_incase reads edge
  · exact tracks_drift reads
  · exact tracks_attempt tracksSome_assignment (fun _ => ⟨rfl, rfl⟩)
      (fun declined given inside => exists_declined_assignment declined given inside)
      tracks_expressionStatement
  · exact tracks_expressionStatement

end

theorem tracks_statementUpTo (edge : window.NoBranch) : ∀ {depth more : Nat}, depth ≤ more →
    window.Tracks window.statements 1 1 (statementUpTo depth) (statementUpTo more) := by
  intro depth more enough
  induction depth, more, enough using rounds_induction with
  | none more => exact tracks_outOfBudget
  | next depth more _ ih => exact tracks_statementWith ih edge

/-- A statement in the window is read in the other list as it is. -/
theorem tracks_statement (edge : window.NoBranch) :
    window.Tracks window.statements 1 1 statement statement :=
  tracks_budget_bind fun _ _ enough => tracks_statementUpTo edge enough

end Window

end Script.Parse
