import Mathlib.Logic.Relation
import Script.Proofs.Grammar

/-!
# The text of a tree

Which tokens a tree is made of, and where its nodes stand in them. `Expr.Text` and `Stmt.Text` say
of a list of tokens that it is the whole text of a tree, from its first token to its last. Other
than in the grammar, nodes have positions here: a node stands at the first token of its text that is
no opening parenthesis (`Stands`).

The parts of a node are the nodes right below it. Their texts lie in that of the node, one behind
the other (`Placed`).

* `Expr.Text.placed`, `Stmt.Text.placed`: what has a text is placed in it, with all its parts.
-/

namespace Script

open Grammar (Operator Sign Declarator Parameters)

/-! ## Positions -/

/-- The first token of a text that is no opening parenthesis is at a position. -/
def Stands (text : List Token) (position : Position) : Prop :=
  (text.find? fun token => token.kind ≠ .symbol .leftParen).map (·.position) = some position

/-! ## Expressions -/

/-- An expression of one token. -/
inductive Leaf (token : Token) (p : Position) : Expr → Prop
  | number : token.kind = .number → Leaf token p (.number p (Numeral.value token.text))
  | string : token.kind = .string → Leaf token p (.string p token.text)
  | yes : token.kind = .keyword .yes → Leaf token p (.boolean p true)
  | no : token.kind = .keyword .no → Leaf token p (.boolean p false)
  | null : token.kind = .keyword .null ∨ token.kind = .keyword .nullPointer →
      Leaf token p (.null p)
  | nan : token.kind = .keyword .notANumber → Leaf token p (.nan p)
  | identifier : token.kind = .identifier → Leaf token p (.identifier p token.text)

mutual

/-- The text of an expression, with any parentheses around it. -/
inductive Expr.Text : List Token → Expr → Prop
  | leaf {token p e} : Leaf token p e → Stands [token] p → Expr.Text [token] e
  | parentheses {opening text closing e} : opening.kind = .symbol .leftParen → e.Text text →
      closing.kind = .symbol .rightParen → Expr.Text (opening :: text ++ [closing]) e
  | array {opening text closing p elements} : opening.kind = .symbol .leftBracket →
      ElementsText text elements → closing.kind = .symbol .rightBracket →
      Stands (opening :: text ++ [closing]) p →
      Expr.Text (opening :: text ++ [closing]) (.array p elements)
  | object {opening text closing p properties} : opening.kind = .symbol .leftBrace →
      PropertiesText text properties → closing.kind = .symbol .rightBrace →
      Stands (opening :: text ++ [closing]) p →
      Expr.Text (opening :: text ++ [closing]) (.object p properties)
  | binary {first token second level mark p operator left right} : left.Text first →
      token.kind = .symbol mark → Operator level mark operator → right.Text second →
      Stands (first ++ token :: second) p →
      Expr.Text (first ++ token :: second) (.binary p operator left right)
  | unary {token text mark p operator operand} : token.kind = .symbol mark → Sign mark operator →
      operand.Text text → Stands (token :: text) p →
      Expr.Text (token :: text) (.unary p operator operand)
  | member {text dot name p object} : object.Text text → dot.kind = .symbol .dot →
      name.kind = .identifier → Stands (text ++ [dot, name]) p →
      Expr.Text (text ++ [dot, name]) (.member p object name.text)
  | arrow {first arrow second p object key} : object.Text first → arrow.kind = .symbol .arrow →
      key.Text second → Stands (first ++ arrow :: second) p →
      Expr.Text (first ++ arrow :: second) (.computed p object key)
  | bracket {first opening second closing p object key} : object.Text first →
      opening.kind = .symbol .leftBracket → key.Text second →
      closing.kind = .symbol .rightBracket → Stands (first ++ opening :: second ++ [closing]) p →
      Expr.Text (first ++ opening :: second ++ [closing]) (.computed p object key)
  | call {first opening second closing p callee arguments} : callee.Text first →
      opening.kind = .symbol .leftParen → ElementsText second arguments →
      closing.kind = .symbol .rightParen → Stands (first ++ opening :: second ++ [closing]) p →
      Expr.Text (first ++ opening :: second ++ [closing]) (.call p callee arguments)

/-- The text of expressions with commas between them. -/
inductive ElementsText : List Token → List Expr → Prop
  | none : ElementsText [] []
  | last {text e} : e.Text text → ElementsText text [e]
  | more {text comma others e next rest} : e.Text text → comma.kind = .symbol .comma →
      ElementsText others (next :: rest) →
      ElementsText (text ++ comma :: others) (e :: next :: rest)

/-- The text of keys with their values and commas between them. -/
inductive PropertiesText : List Token → List (String × Expr) → Prop
  | none : PropertiesText [] []
  | last {key colon text e} : key.kind = .identifier → colon.kind = .symbol .colon →
      e.Text text → PropertiesText (key :: colon :: text) [(key.text, e)]
  | more {key colon text comma others e next rest} : key.kind = .identifier →
      colon.kind = .symbol .colon → e.Text text → comma.kind = .symbol .comma →
      PropertiesText others (next :: rest) →
      PropertiesText (key :: colon :: text ++ comma :: others) ((key.text, e) :: next :: rest)

end

/-! ## Statements -/

/-- An assignment at a position: its target, and what becomes of it. -/
inductive Assigns (p : Position) (value : Expr) : Expr → Stmt → Prop
  | name {q name} : Assigns p value (.identifier q name) (.assign p name value)
  | member {q object property} :
      Assigns p value (.member q object property) (.assignMember p object property value)
  | computed {q object key} :
      Assigns p value (.computed q object key) (.assignComputed p object key value)

/-- The text of a condition is that of an expression in parentheses. -/
inductive ConditionText (condition : Expr) : List Token → Prop
  | mk {opening text closing} : opening.kind = .symbol .leftParen → condition.Text text →
      closing.kind = .symbol .rightParen → ConditionText condition (opening :: text ++ [closing])

/-- Whether a statement ends with a block. -/
def Stmt.endsWithBlock : Stmt → Bool
  | .procedure .. | .incase .. | .drift .. | .through .. => true
  | _ => false

/-- What ends a statement: a semicolon, unless a block does. -/
inductive Ending (s : Stmt) : List Token → Prop
  | block : s.endsWithBlock = true → Ending s []
  | semicolon {token} : s.endsWithBlock = false → token.kind = .symbol .semicolon →
      Ending s [token]

mutual

/-- The text of a statement, without the semicolon behind it. -/
inductive Stmt.Text : List Token → Stmt → Prop
  | declare {keyword name equals text p constant value} : Declarator keyword.kind constant →
      name.kind = .identifier → equals.kind = .symbol .equals → value.Text text →
      Stands (keyword :: name :: equals :: text) p →
      Stmt.Text (keyword :: name :: equals :: text) (.declare p name.text constant value)
  | assign {first target equals text p goal value s} : first.kind = .identifier →
      goal.Text (first :: target) → equals.kind = .symbol .equals → value.Text text →
      Assigns p value goal s → Stands (first :: target ++ equals :: text) p →
      Stmt.Text (first :: target ++ equals :: text) s
  | procedure {keyword name opening names text p parameters body} :
      keyword.kind = .keyword .procedure → name.kind = .identifier →
      opening.kind = .symbol .leftParen → Parameters names parameters [] → BlockText text body →
      Stands (keyword :: name :: opening :: names ++ text) p →
      Stmt.Text (keyword :: name :: opening :: names ++ text)
        (.procedure p name.text parameters body)
  | returns {keyword text p value} : keyword.kind = .keyword .returns → value.Text text →
      Stands (keyword :: text) p → Stmt.Text (keyword :: text) (.returns p value)
  | leave {keyword p} : keyword.kind = .keyword .leave → Stands [keyword] p →
      Stmt.Text [keyword] (.leave p)
  | proceed {keyword p} : keyword.kind = .keyword .proceed → Stands [keyword] p →
      Stmt.Text [keyword] (.proceed p)
  | incase {keyword test text others p condition body fallback} :
      keyword.kind = .keyword .incase → ConditionText condition test → BlockText text body →
      fallback.Text others → Stands (keyword :: test ++ text ++ others) p →
      Stmt.Text (keyword :: test ++ text ++ others) (.incase p condition body fallback)
  | through {keyword opening binding name word source closing text p constant iterable body} :
      keyword.kind = .keyword .drift → opening.kind = .symbol .leftParen →
      Declarator binding.kind constant → name.kind = .identifier →
      word.kind = .keyword .through → iterable.Text source →
      closing.kind = .symbol .rightParen → BlockText text body →
      Stands (keyword :: opening :: binding :: name :: word :: source ++ closing :: text) p →
      Stmt.Text (keyword :: opening :: binding :: name :: word :: source ++ closing :: text)
        (.through p name.text constant iterable body)
  | drift {keyword opening start first test second step closing text p q r name constant value
      condition target update body} :
      keyword.kind = .keyword .drift → opening.kind = .symbol .leftParen →
      Stmt.Text start (.declare q name constant value) → first.kind = .symbol .semicolon →
      condition.Text test → second.kind = .symbol .semicolon →
      Stmt.Text step (.assign r target update) → closing.kind = .symbol .rightParen →
      BlockText text body →
      Stands (keyword :: opening :: start ++ first :: test ++ second :: step ++ closing :: text)
        p →
      Stmt.Text (keyword :: opening :: start ++ first :: test ++ second :: step ++ closing :: text)
        (.drift p (.declare q name constant value) condition (.assign r target update) body)
  | expression {text value} : value.Text text → Stmt.Text text (.expression value)

/-- The text of what a conditional falls back on. -/
inductive Fallback.Text : List Token → Fallback → Prop
  | nothing : Fallback.Text [] .nothing
  | block {keyword text body} : keyword.kind = .keyword .otherwise → BlockText text body →
      Fallback.Text (keyword :: text) (.block body)
  | elif {keyword test text others p condition body fallback} :
      keyword.kind = .keyword .elif → ConditionText condition test → BlockText text body →
      Stands (keyword :: test ++ text) p → fallback.Text others →
      Fallback.Text (keyword :: test ++ text ++ others) (.elif p condition body fallback)

/-- The text of a block, with its braces. -/
inductive BlockText : List Token → List Stmt → Prop
  | mk {opening text closing body} : opening.kind = .symbol .leftBrace →
      StatementsText text body → closing.kind = .symbol .rightBrace →
      BlockText (opening :: text ++ [closing]) body

/-- The text of statements one behind the other. -/
inductive StatementsText : List Token → List Stmt → Prop
  | none : StatementsText [] []
  | cons {text ending others s rest} : s.Text text → Ending s ending →
      StatementsText others rest → StatementsText (text ++ ending ++ others) (s :: rest)

end

/-! ## Nodes and their parts -/

/-- A node of a tree below the program: an expression, a statement, or a further branch of a
conditional. -/
inductive TreeNode where
  | expr (e : Expr)
  | stmt (s : Stmt)
  | branch (position : Position) (condition : Expr) (body : List Stmt)

/-- The expressions right below an expression, in the order of the text. -/
def Expr.parts : Expr → List Expr
  | .array _ elements => elements
  | .object _ properties => properties.map (·.2)
  | .binary _ _ left right => [left, right]
  | .unary _ _ operand => [operand]
  | .member _ target _ => [target]
  | .computed _ target key => [target, key]
  | .call _ callee arguments => callee :: arguments
  | _ => []

/-- The nodes that a fallback adds to a conditional: its branches, and the statements of the block
at its end. -/
def Fallback.parts : Fallback → List TreeNode
  | .nothing => []
  | .block body => body.map .stmt
  | .elif p condition body fallback => .branch p condition body :: fallback.parts

/-- The nodes right below a statement, in the order of the text. A statement that is an expression
is the same node as the expression. -/
def Stmt.parts : Stmt → List TreeNode
  | .declare _ _ _ value | .assign _ _ value | .returns _ value => [.expr value]
  | .assignMember _ object _ value => [.expr object, .expr value]
  | .assignComputed _ object key value => [.expr object, .expr key, .expr value]
  | .procedure _ _ _ body => body.map .stmt
  | .leave _ | .proceed _ => []
  | .incase _ condition body fallback => .expr condition :: body.map .stmt ++ fallback.parts
  | .drift _ init condition update body =>
    .stmt init :: .expr condition :: .stmt update :: body.map .stmt
  | .through _ _ _ iterable body => .expr iterable :: body.map .stmt
  | .expression e => e.parts.map .expr

namespace TreeNode

def position : TreeNode → Position
  | expr e => e.position
  | stmt s => s.position
  | branch p _ _ => p

/-- The nodes right below a node, in the order of the text. -/
def parts : TreeNode → List TreeNode
  | expr e => e.parts.map .expr
  | stmt s => s.parts
  | branch _ condition body => .expr condition :: body.map .stmt

/-- A node lies below another one, at any depth, or is the same. -/
def Below : TreeNode → TreeNode → Prop := Relation.ReflTransGen fun below node => below ∈ node.parts

/-- The text of a node. -/
inductive Text : List Token → TreeNode → Prop
  | expr {text e} : e.Text text → Text text (.expr e)
  | stmt {text s} : s.Text text → Text text (.stmt s)
  | branch {keyword test text p condition body} : keyword.kind = .keyword .elif →
      ConditionText condition test → BlockText text body →
      Text (keyword :: test ++ text) (.branch p condition body)

end TreeNode

/-- A node is a statement of a program or lies below one. -/
def Program.Has (program : Program) (node : TreeNode) : Prop :=
  ∃ s ∈ program.body, node.Below (.stmt s)

/-- The texts of nodes lie in a text, one behind the other. -/
inductive Spaced (holds : List Token → TreeNode → Prop) : List Token → List TreeNode → Prop
  | nil {text} : Spaced holds text []
  | cons {before text after node nodes} : holds text node → Spaced holds after nodes →
      Spaced holds (before ++ text ++ after) (node :: nodes)

/-- A node stands at the start of its text, and so do all nodes below it, which lie in the text
part behind part. -/
inductive Placed : List Token → TreeNode → Prop
  | mk {text node} : node.Text text → Stands text node.position →
      Spaced Placed text node.parts → Placed text node

/-! ## Lemmas on positions -/

section

variable {text : List Token} {token : Token} {p : Position}

theorem Stands.ne_nil (stands : Stands text p) : text ≠ [] := by
  rintro rfl
  cases stands

theorem Stands.append (stands : Stands text p) (more : List Token) : Stands (text ++ more) p := by
  obtain ⟨first, found, position⟩ := Option.map_eq_some_iff.mp stands
  unfold Stands
  rw [List.find?_append, found]
  exact congrArg some position

/-- An opening parenthesis before a text does not change where it stands. -/
theorem Stands.parenthesis (opens : token.kind = .symbol .leftParen) (stands : Stands text p) :
    Stands (token :: text) p := by
  unfold Stands
  rw [List.find?_cons_of_neg (by simp [opens])]
  exact stands

/-- A text that starts with any other token stands at that token. -/
theorem stands_cons {kind : Kind} (found : token.kind = kind) (solid : kind ≠ .symbol .leftParen)
    (text : List Token) : Stands (token :: text) token.position := by
  unfold Stands
  rw [List.find?_cons_of_pos (by simp [found, solid])]
  rfl

/-- An expression stands at the first token of its text that is no opening parenthesis. -/
theorem Expr.Text.stands {text : List Token} {e : Expr} : e.Text text → Stands text e.position
  | .leaf single stands => by
    cases single <;> exact stands
  | .parentheses opens inner _ => (inner.stands.parenthesis opens).append _
  | .array _ _ _ stands | .object _ _ _ stands | .binary _ _ _ _ stands | .unary _ _ _ stands
  | .member _ _ _ stands | .arrow _ _ _ stands | .bracket _ _ _ _ stands
  | .call _ _ _ _ stands => stands

/-- A statement stands where its text does; one that is an expression stands where that does. -/
theorem Stmt.Text.stands {text : List Token} {s : Stmt} : s.Text text → Stands text s.position
  | .assign _ _ _ _ assigns stands => by
    cases assigns <;> exact stands
  | .expression value => value.stands
  | .declare _ _ _ _ stands | .procedure _ _ _ _ _ stands | .returns _ _ stands
  | .leave _ stands | .proceed _ stands | .incase _ _ _ _ stands
  | .through _ _ _ _ _ _ _ _ stands | .drift _ _ _ _ _ _ _ _ _ stands => stands

end

/-! ## Lemmas on parts -/

namespace Spaced

variable {holds : List Token → TreeNode → Prop} {text first second : List Token}
  {node : TreeNode} {nodes others : List TreeNode}

/-- Nodes in a text are nodes in a longer one that ends with it. -/
theorem behind (spaced : Spaced holds text nodes) (before : List Token) :
    Spaced holds (before ++ text) nodes := by
  cases spaced with
  | nil => exact .nil
  | cons placed rest =>
    rw [← List.append_assoc, ← List.append_assoc]
    exact .cons placed rest

/-- Nodes in two texts, one behind the other, are nodes in the text of both. -/
theorem append (spaced : Spaced holds first nodes) (further : Spaced holds second others) :
    Spaced holds (first ++ second) (nodes ++ others) := by
  induction spaced with
  | nil => exact further.behind _
  | cons placed _ ih =>
    rw [List.append_assoc]
    exact .cons placed ih

theorem before (spaced : Spaced holds text nodes) (after : List Token) :
    Spaced holds (text ++ after) nodes := by
  have spread := spaced.append (.nil : Spaced holds after [])
  rw [List.append_nil] at spread
  exact spread

theorem skip (spaced : Spaced holds text nodes) (token : Token) :
    Spaced holds (token :: text) nodes :=
  spaced.behind [token]

theorem exists_infix (spaced : Spaced holds text nodes) (part : node ∈ nodes) :
    ∃ inner, inner <:+: text ∧ holds inner node := by
  induction spaced with
  | nil => cases part
  | @cons front inner back first rest placed _ ih =>
    rcases List.mem_cons.mp part with rfl | later
    · exact ⟨inner, ⟨front, back, rfl⟩, placed⟩
    · obtain ⟨deeper, inside, holds⟩ := ih later
      exact ⟨deeper, inside.trans (List.suffix_append _ _).isInfix, holds⟩

end Spaced

namespace Placed

variable {text : List Token} {node below : TreeNode}

theorem written (placed : Placed text node) : node.Text text := by
  obtain ⟨written, _, _⟩ := placed
  exact written

theorem stands (placed : Placed text node) : Stands text node.position := by
  obtain ⟨_, stands, _⟩ := placed
  exact stands

theorem parts (placed : Placed text node) : Spaced Placed text node.parts := by
  obtain ⟨_, _, parts⟩ := placed
  exact parts

theorem spaced (placed : Placed text node) : Spaced Placed text [node] := by
  have single : Spaced Placed ([] ++ text ++ []) [node] := .cons placed .nil
  rw [List.nil_append, List.append_nil] at single
  exact single

/-- The texts of the nodes below a node lie in its text. -/
theorem exists_infix (placed : Placed text node) (lies : below.Below node) :
    ∃ inner, inner <:+: text ∧ Placed inner below := by
  induction lies using Relation.ReflTransGen.head_induction_on with
  | refl => exact ⟨text, List.infix_rfl, placed⟩
  | head part _ ih =>
    obtain ⟨inner, inside, placedInner⟩ := ih
    obtain ⟨deeper, deep, placedDeeper⟩ := placedInner.parts.exists_infix part
    exact ⟨deeper, deep.trans inside, placedDeeper⟩

end Placed

/-! ## Texts are placed -/

/-- Where an expression stands is known, so only its parts have to be found. -/
theorem Expr.Text.placed_of_spaced {text : List Token} {e : Expr} (written : e.Text text)
    (parts : Spaced Placed text (e.parts.map .expr)) : Placed text (.expr e) :=
  .mk (.expr written) written.stands parts

mutual

/-- An expression is placed in its text, with all its parts in order. -/
theorem Expr.Text.placed {text : List Token} {e : Expr} : e.Text text → Placed text (.expr e)
  | whole@(.leaf single _) => whole.placed_of_spaced (by cases single <;> exact .nil)
  | whole@(.parentheses _ inner _) => by
    -- parentheses make no node, so the parts are those of what they stand around
    obtain ⟨_, _, parts⟩ := inner.placed
    exact whole.placed_of_spaced ((parts.skip _).before _)
  | whole@(.array _ elements _ _) => whole.placed_of_spaced ((elements.spaced.skip _).before _)
  | whole@(.object _ properties _ _) =>
    whole.placed_of_spaced ((properties.spaced.skip _).before _)
  | whole@(.binary left _ _ right _) =>
    whole.placed_of_spaced (left.placed.spaced.append (right.placed.spaced.skip _))
  | whole@(.unary _ _ operand _) => whole.placed_of_spaced (operand.placed.spaced.skip _)
  | whole@(.member target _ _ _) => whole.placed_of_spaced (target.placed.spaced.before _)
  | whole@(.arrow target _ key _) =>
    whole.placed_of_spaced (target.placed.spaced.append (key.placed.spaced.skip _))
  | whole@(.bracket target _ key _ _) =>
    whole.placed_of_spaced ((target.placed.spaced.append (key.placed.spaced.skip _)).before _)
  | whole@(.call callee _ arguments _ _) =>
    whole.placed_of_spaced ((callee.placed.spaced.append (arguments.spaced.skip _)).before _)

theorem ElementsText.spaced {text : List Token} {elements : List Expr} :
    ElementsText text elements → Spaced Placed text (elements.map .expr)
  | .none => .nil
  | .last only => only.placed.spaced
  | .more first _ others => first.placed.spaced.append (others.spaced.skip _)

theorem PropertiesText.spaced {text : List Token} {properties : List (String × Expr)} :
    PropertiesText text properties → Spaced Placed text ((properties.map (·.2)).map .expr)
  | .none => .nil
  | .last _ _ only => (only.placed.spaced.skip _).skip _
  | .more _ _ first _ others =>
    ((first.placed.spaced.skip _).skip _).append (others.spaced.skip _)

end

/-- The parentheses of a condition make no node: it has one part, the expression in them. -/
theorem ConditionText.spaced {text : List Token} {condition : Expr} :
    ConditionText condition text → Spaced Placed text [.expr condition]
  | .mk _ inner _ => (inner.placed.spaced.skip _).before _

/-- The target of an assignment is no node, but its parts are. -/
theorem Assigns.parts_eq {p : Position} {value target : Expr} {s : Stmt}
    (assigns : Assigns p value target s) :
    s.parts = target.parts.map .expr ++ [.expr value] := by
  cases assigns <;> rfl

/-- Where a statement stands is known too, so only its parts have to be found. -/
theorem Stmt.Text.placed_of_spaced {text : List Token} {s : Stmt} (written : s.Text text)
    (parts : Spaced Placed text s.parts) : Placed text (.stmt s) :=
  .mk (.stmt written) written.stands parts

mutual

/-- A statement is placed in its text, with all its parts in order. -/
theorem Stmt.Text.placed {text : List Token} {s : Stmt} : s.Text text → Placed text (.stmt s)
  -- keywords, names and marks between the parts are skipped
  | whole@(.declare _ _ _ value _) =>
    whole.placed_of_spaced (((value.placed.spaced.skip _).skip _).skip _)
  | whole@(.assign _ target _ value assigns _) => by
    -- the target is no node of its own: its parts are taken out of it
    obtain ⟨_, _, parts⟩ := target.placed
    refine whole.placed_of_spaced ?_
    rw [assigns.parts_eq]
    exact parts.append (value.placed.spaced.skip _)
  | whole@(.procedure _ _ _ _ body _) => whole.placed_of_spaced (body.spaced.behind _)
  | whole@(.returns _ value _) => whole.placed_of_spaced (value.placed.spaced.skip _)
  | whole@(.leave _ _) => whole.placed_of_spaced .nil
  | whole@(.proceed _ _) => whole.placed_of_spaced .nil
  | whole@(.incase _ condition body fallback _) =>
    whole.placed_of_spaced (((condition.spaced.skip _).append body.spaced).append fallback.spaced)
  | whole@(.through _ _ _ _ _ iterable _ body _) =>
    whole.placed_of_spaced ((iterable.placed.spaced.behind [_, _, _, _, _]).append
      (body.spaced.skip _))
  | whole@(.drift _ _ init _ condition _ update _ body _) =>
    whole.placed_of_spaced (((((init.placed.spaced.skip _).skip _).append
      (condition.placed.spaced.skip _)).append (update.placed.spaced.skip _)).append
      (body.spaced.skip _))
  | whole@(.expression value) => by
    obtain ⟨_, _, parts⟩ := value.placed
    exact whole.placed_of_spaced parts

/-- A further branch is a node of its own; the statements of the last block are parts of the
conditional. -/
theorem Fallback.Text.spaced {text : List Token} {fallback : Fallback} :
    fallback.Text text → Spaced Placed text fallback.parts
  | .nothing => .nil
  | .block _ body => body.spaced.skip _
  | .elif kind condition body stands others => by
    have branch : Placed _ (.branch _ _ _) :=
      .mk (.branch kind condition body) stands ((condition.spaced.skip _).append body.spaced)
    exact branch.spaced.append others.spaced

theorem BlockText.spaced {text : List Token} {body : List Stmt} :
    BlockText text body → Spaced Placed text (body.map .stmt)
  | .mk _ statements _ => (statements.spaced.skip _).before _

theorem StatementsText.spaced {text : List Token} {body : List Stmt} :
    StatementsText text body → Spaced Placed text (body.map .stmt)
  | .none => .nil
  | .cons first _ others => (first.placed.spaced.before _).append others.spaced

end

end Script
