import Mathlib
import Script.Proofs.Parse.Positions
import Script.Proofs.Parse.Text
import Script.Proofs.Token.Splitting

/-!
# Nodes in the order of the text

Each token starts behind the one before it, by line and column. The texts of the parts of a node
lie one behind the other, and each node stands in its text. So the parts of a node stand in order,
and nothing below a node stands before it.

* `Splits.ordered`: the tokens of a text are in order.
* `Placed.not_before`, `Spaced.ordered`: so are the nodes that stand in them.
* `nodes_stand_at_their_text`: all of it, for compiled programs.
-/

namespace Script

open Lexer

/-! ## Positions in order -/

namespace Position

/-- A position lies on an earlier line, or further to the left on the same one. -/
def Before (p q : Position) : Prop := p.line < q.line ∨ p.line = q.line ∧ p.column < q.column

variable {p q r : Position}

theorem not_before_self (p : Position) : ¬ p.Before p := by
  unfold Before
  omega

theorem Before.asymm (before : p.Before q) : ¬ q.Before p := by
  unfold Before at *
  omega

/-- What is not before a later position lies behind the earlier one. -/
theorem Before.trans_not_before (before : p.Before q) (behind : ¬ r.Before q) : p.Before r := by
  unfold Before at *
  omega

theorem not_before_trans (behind : ¬ q.Before p) (further : ¬ r.Before q) : ¬ r.Before p := by
  unfold Before at *
  omega

end Position

/-- Each token is at a position behind those of the tokens before it. -/
def Ordered (tokens : List Token) : Prop :=
  tokens.Pairwise fun first second => first.position.Before second.position

theorem Ordered.sublist {tokens others : List Token} (ordered : Ordered tokens)
    (sublist : others.Sublist tokens) : Ordered others :=
  List.Pairwise.sublist sublist ordered

/-! ## Tokens in order -/

namespace Place

/-- Reading a character moves the place. -/
theorem before_next (place : Place) (c : Char) :
    place.toPosition.Before (place.next c).toPosition := by
  unfold next Position.Before
  split
  · exact .inl (Int.lt_succ place.line)
  · exact .inr ⟨rfl, Int.lt_succ place.column⟩

theorem not_after_before (place : Place) (text : List Char) :
    ¬ (place.after text).toPosition.Before place.toPosition := by
  induction text generalizing place with
  | nil => exact place.toPosition.not_before_self
  | cons c rest ih =>
    exact Position.not_before_trans (place.before_next c).asymm (ih (place.next c))

theorem before_after (place : Place) {text : List Char} (some : text ≠ []) :
    place.toPosition.Before (place.after text).toPosition := by
  obtain ⟨c, rest, rfl⟩ := List.exists_cons_of_ne_nil some
  exact (place.before_next c).trans_not_before ((place.next c).not_after_before rest)

end Place

theorem Spells.raw_ne_nil {raw behind value : List Char} {kind : Kind}
    (spells : Spells raw behind kind value) : raw ≠ [] := by
  obtain ⟨c, rest, rfl, _⟩ := takes_of_spells spells
  exact List.cons_ne_nil _ _

/-- The tokens of a text are in order, and none is before the place where the text starts. -/
theorem Splits.ordered {place : Place} {text last : List Char} {pieces : List Piece}
    (splits : Splits place text pieces last) :
    Ordered (splitTokens pieces (place.after text)) ∧
      ∀ token ∈ splitTokens pieces (place.after text),
        ¬ token.position.Before place.toPosition := by
  induction splits with
  | @last place gap _ =>
    refine ⟨List.pairwise_singleton _ _, ?_⟩
    intro token only
    cases List.mem_singleton.mp only
    exact place.not_after_before gap
  | @piece place gap raw rest kind value pieces last _ spells _ ih =>
    obtain ⟨ordered, behind⟩ := ih
    rw [Place.after_append, Place.after_append]
    have step := (place.after gap).before_after spells.raw_ne_nil
    refine ⟨.cons ?_ ordered, List.forall_mem_cons.mpr ⟨place.not_after_before gap, ?_⟩⟩
    · intro token later
      exact step.trans_not_before (behind token later)
    · intro token later
      exact Position.not_before_trans (place.not_after_before gap)
        (step.trans_not_before (behind token later)).asymm

theorem ordered_of_tokenize {source : String} {tokens : List Token}
    (split : tokenize source = .ok tokens) : Ordered tokens := by
  obtain ⟨pieces, last, splits, rfl⟩ := tokensFrom_eq_ok_iff.mp split
  exact splits.ordered.1

/-! ## Nodes in order -/

section

variable {text : List Token} {p : Position} {node below : TreeNode} {nodes : List TreeNode}

theorem Stands.exists_token (stands : Stands text p) :
    ∃ token ∈ text, token.kind ≠ .symbol .leftParen ∧ token.position = p := by
  obtain ⟨token, found, position⟩ := Option.map_eq_some_iff.mp stands
  exact ⟨token, List.mem_of_find?_eq_some found, by simpa using List.find?_some found, position⟩

/-- Nothing in a text stands before it, but for opening parentheses. -/
theorem Stands.not_before (stands : Stands text p) (ordered : Ordered text) {token : Token}
    (inside : token ∈ text) (solid : token.kind ≠ .symbol .leftParen) :
    ¬ token.position.Before p := by
  obtain ⟨first, found, rfl⟩ := Option.map_eq_some_iff.mp stands
  obtain ⟨_, front, back, rfl, parentheses⟩ := List.find?_eq_some_iff_append.mp found
  rcases List.mem_append.mp inside with early | late
  · exact absurd solid (by simpa using parentheses token early)
  · rcases List.mem_cons.mp late with rfl | behind
    · exact Position.not_before_self _
    · have further := List.pairwise_cons.mp (List.pairwise_append.mp ordered).2.1
      exact (further.1 token behind).asymm

/-- Nothing below a node stands before it. -/
theorem Placed.not_before (placed : Placed text node) (ordered : Ordered text)
    (lies : below.Below node) : ¬ below.position.Before node.position := by
  obtain ⟨inner, inside, placedBelow⟩ := placed.exists_infix lies
  obtain ⟨token, member, solid, position⟩ := placedBelow.stands.exists_token
  rw [← position]
  exact placed.stands.not_before ordered (inside.subset member) solid

/-- Nodes whose texts lie one behind the other stand in order. -/
theorem Spaced.ordered (spaced : Spaced Placed text nodes) (ordered : Ordered text) :
    nodes.Pairwise fun first second => first.position.Before second.position := by
  induction spaced with
  | nil => exact .nil
  | @cons front inner back node rest placed further ih =>
    obtain ⟨_, behind, apart⟩ := List.pairwise_append.mp ordered
    refine .cons ?_ (ih behind)
    intro later part
    obtain ⟨deeper, inside, placedLater⟩ := further.exists_infix part
    obtain ⟨token, member, _, position⟩ := placed.stands.exists_token
    obtain ⟨other, otherMember, _, otherPosition⟩ := placedLater.stands.exists_token
    rw [← position, ← otherPosition]
    exact apart token (List.mem_append_right _ member) other (inside.subset otherMember)

end

/-! ## Programs -/

/-- A program and all its nodes stand where their texts start. -/
structure Program.StandsIn (program : Program) (tokens : List Token) : Prop where
  /-- The first token may be the end of input. -/
  start : tokens.head?.map (·.position) = some program.position
  text : StatementsText (Grammar.beforeEnd tokens) program.body
  nodes : ∀ node, program.Has node →
    ∃ text, text <:+: tokens ∧ node.Text text ∧ Stands text node.position
  statements : program.body.Pairwise fun first second => first.position.Before second.position
  parts : ∀ node, program.Has node →
    node.parts.Pairwise fun first second => first.position.Before second.position
  below : ∀ node, program.Has node → ∀ other : TreeNode, other.Below node →
    ¬ other.position.Before node.position

/-- Every node of a compiled program stands at the first token of its text that is no opening
parenthesis. So no node stands before one above it, and the parts of every node stand in order:
the statements of a block, the elements of an array, the values of an object, the arguments of a
call and the operands of an operator among them. -/
theorem nodes_stand_at_their_text (source : String) (program : Program)
    (compiled : compile source = .ok program) :
    ∃ tokens, tokenize source = .ok tokens ∧ program.StandsIn tokens := by
  obtain ⟨tokens, after, split, given⟩ := gives_of_compile compiled
  have ordered := ordered_of_tokenize split
  have parsed : parse tokens = .ok program := parse_eq_ok_iff.mpr ⟨after, given⟩
  obtain ⟨written, position⟩ := parse_text parsed
  have visible : (Grammar.beforeEnd tokens).Sublist tokens := List.takeWhile_sublist _
  refine ⟨tokens, split, ?_, written, ?_, ?_, ?_, ?_⟩
  · obtain ⟨front, final, rfl, ended, _⟩ := exists_ended_of_tokensFrom split
    rw [position, TokenList.ofList_of_end ended]
    cases front <;> rfl
  · intro node isNode
    obtain ⟨text, inside, placed⟩ := parse_placed parsed isNode
    exact ⟨text, inside, placed.written, placed.stands⟩
  · have statements := written.spaced.ordered (ordered.sublist visible)
    exact (List.pairwise_map (f := TreeNode.stmt)).mp statements
  · intro node isNode
    obtain ⟨text, inside, placed⟩ := parse_placed parsed isNode
    exact placed.parts.ordered (ordered.sublist inside.sublist)
  · intro node isNode other lies
    obtain ⟨text, inside, placed⟩ := parse_placed parsed isNode
    exact placed.not_before (ordered.sublist inside.sublist) lies

/-- Parentheses around an operand take no part in positions. -/
def parenthesizedProgram : Program :=
  ⟨⟨1, 1⟩,
    [.expression (.call ⟨1, 1⟩ (.identifier ⟨1, 1⟩ "f")
      [.binary ⟨2, 2⟩ .add (.identifier ⟨2, 2⟩ "a") (.identifier ⟨2, 5⟩ "b")])]⟩

theorem parenthesizedProgram_stands :
    compile "f(\n(a)+b);" = .ok parenthesizedProgram ∧
    ∃ tokens, tokenize "f(\n(a)+b);" = .ok tokens ∧ parenthesizedProgram.StandsIn tokens := by
  have compiled : compile "f(\n(a)+b);" = .ok parenthesizedProgram := by cbv
  exact ⟨compiled, nodes_stand_at_their_text _ _ compiled⟩

end Script
