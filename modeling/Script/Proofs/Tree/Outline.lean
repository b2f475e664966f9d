import Mathlib
import Script.Proofs.Number.Word
import Script.Proofs.Parse.Program
import Script.Proofs.Parse.Text
import Script.Tree.Outline

/-!
# Reading outlines

`Program.ofOutline?` reads a tree back from its outline. The kind of a node and the number of its
parts say which node it is, and the parts say the rest: whether a number is shown by its digits or
by its text, whether there is an else body, whether the property of an assignment is a name or an
expression.

* `Expr.Text.ofOutline?_outline`, `Stmt.Text.ofOutline?_outline`: trees of texts are read back.
* `outline_is_faithful`: so are all trees that the parser gives, and no two of them have the same
  outline.
-/

namespace Script

/-! ## Reading -/

/-- The number of an outline. -/
def Number.ofOutline? : Data → Option Number
  | .number x => some x
  | .text shown =>
    if shown = "nan" then some .nan
    else if shown = "inf" then some (.ofRank false Number.infinityRank)
    else if shown = "-inf" then some (.ofRank true Number.infinityRank)
    else none
  | _ => none

/-- The text of an outline. -/
def Data.text? : Data → Option String
  | .text value => some value
  | _ => none

/-- The truth value of an outline. -/
def Data.boolean? : Data → Option Bool
  | .boolean value => some value
  | _ => none

/-- The whole number of an outline. -/
def Data.integer? : Data → Option Int
  | .integer value => some value
  | _ => none

/-- The texts of outlines. -/
def Data.texts? : Data → Option (List String)
  | .list items => items.mapM text?
  | _ => none

/-- The position that ends the outline of a node. -/
def Position.ofOutline? (line column : Data) : Option Position := do
  return ⟨← line.integer?, ← column.integer?⟩

mutual

/-- The expression of an outline. -/
def Expr.ofOutline? : Data → Option Expr
  | .record [(_, kind), (_, line), (_, column)] => do
    let p ← Position.ofOutline? line column
    match ← kind.text? with
    | "null" => some (.null p)
    | "nan" => some (.nan p)
    | _ => none
  | .record [(_, kind), (_, part), (_, line), (_, column)] => do
    let p ← Position.ofOutline? line column
    match ← kind.text? with
    | "number" => (Number.ofOutline? part).map (.number p)
    | "string" => part.text?.map (.string p)
    | "boolean" => part.boolean?.map (.boolean p)
    | "identifier" => part.text?.map (.identifier p)
    | "array" => (elementsOfOutline? part).map (.array p)
    | "object" => (propertiesOfOutline? part).map (.object p)
    | _ => none
  | .record [(_, kind), (_, first), (_, second), (_, line), (_, column)] => do
    let p ← Position.ofOutline? line column
    match ← kind.text? with
    | "unary" => return .unary p (.ofSpelling (← first.text?)) (← Expr.ofOutline? second)
    | "member" => return .member p (← Expr.ofOutline? first) (← second.text?)
    | "computed_member" =>
      return .computed p (← Expr.ofOutline? first) (← Expr.ofOutline? second)
    | "call" => return .call p (← Expr.ofOutline? first) (← elementsOfOutline? second)
    | _ => none
  | .record [(_, kind), (_, first), (_, second), (_, third), (_, line), (_, column)] => do
    let p ← Position.ofOutline? line column
    match ← kind.text? with
    | "binary" =>
      return .binary p (.ofSpelling (← first.text?)) (← Expr.ofOutline? second)
        (← Expr.ofOutline? third)
    | _ => none
  | _ => none

/-- The expressions of an outline. -/
def elementsOfOutline? : Data → Option (List Expr)
  | .list items => elementsOfOutlines? items
  | _ => none

/-- The expressions of outlines. -/
def elementsOfOutlines? : List Data → Option (List Expr)
  | [] => some []
  | item :: rest => do return (← Expr.ofOutline? item) :: (← elementsOfOutlines? rest)

/-- The properties of an outline. -/
def propertiesOfOutline? : Data → Option (List (String × Expr))
  | .list items => propertiesOfOutlines? items
  | _ => none

/-- The properties of outlines. -/
def propertiesOfOutlines? : List Data → Option (List (String × Expr))
  | [] => some []
  | .list [key, value] :: rest => do
    return (← key.text?, ← Expr.ofOutline? value) :: (← propertiesOfOutlines? rest)
  | _ => none

end

mutual

/-- The statement of an outline. What is no other statement is an expression. -/
def Stmt.ofOutline? (data : Data) : Option Stmt :=
  match data with
  | .record [(_, kind), (_, line), (_, column)] => do
    let p ← Position.ofOutline? line column
    match ← kind.text? with
    | "break" => some (.leave p)
    | "continue" => some (.proceed p)
    | _ => (Expr.ofOutline? data).map .expression
  | .record [(_, kind), (_, part), (_, line), (_, column)] => do
    let p ← Position.ofOutline? line column
    match ← kind.text? with
    | "return" => (Expr.ofOutline? part).map (.returns p)
    | _ => (Expr.ofOutline? data).map .expression
  | .record [(_, kind), (_, first), (_, second), (_, line), (_, column)] => do
    let p ← Position.ofOutline? line column
    match ← kind.text? with
    | "assign" => return .assign p (← first.text?) (← Expr.ofOutline? second)
    | _ => (Expr.ofOutline? data).map .expression
  | .record [(_, kind), (_, first), (_, second), (_, third), (_, line), (_, column)] => do
    let p ← Position.ofOutline? line column
    match ← kind.text? with
    | "var_decl" =>
      return .declare p (← first.text?) (← second.boolean?) (← Expr.ofOutline? third)
    | "procedure" =>
      return .procedure p (← first.text?) (← second.texts?) (← blockOfOutline? third)
    | _ => (Expr.ofOutline? data).map .expression
  | .record [(_, kind), (_, first), (_, second), (_, third), (_, fourth), (_, line),
      (_, column)] => do
    let p ← Position.ofOutline? line column
    match ← kind.text? with
    | "member_assign" =>
      let object ← Expr.ofOutline? first
      let value ← Expr.ofOutline? fourth
      if ← third.boolean? then
        return .assignComputed p object (← Expr.ofOutline? second) value
      else
        return .assignMember p object (← second.text?) value
    | "incase" =>
      return .incase p (← Expr.ofOutline? first) (← blockOfOutline? second)
        (← fallbackOfOutline? third (← Fallback.ofOutline? fourth))
    | "drift" =>
      return .drift p (← Stmt.ofOutline? first) (← Expr.ofOutline? second)
        (← Stmt.ofOutline? third) (← blockOfOutline? fourth)
    | "drift_through" =>
      return .through p (← first.text?) (← second.boolean?) (← Expr.ofOutline? third)
        (← blockOfOutline? fourth)
    | _ => none
  | _ => none

/-- The block at the end of a fallback, if there is one. -/
def Fallback.ofOutline? : Data → Option Fallback
  | .null => some .nothing
  | .list items => (blockOfOutlines? items).map .block
  | _ => none

/-- A fallback: the branches of an outline, before what follows them. -/
def fallbackOfOutline? : Data → Fallback → Option Fallback
  | .list items, last => branchesOfOutlines? items last
  | _, _ => none

/-- The branches of outlines, before what follows them. -/
def branchesOfOutlines? : List Data → Fallback → Option Fallback
  | [], last => some last
  | .record [_, (_, condition), (_, body), (_, line), (_, column)] :: rest, last => do
    let p ← Position.ofOutline? line column
    return .elif p (← Expr.ofOutline? condition) (← blockOfOutline? body)
      (← branchesOfOutlines? rest last)
  | _, _ => none

/-- The statements of an outline. -/
def blockOfOutline? : Data → Option (List Stmt)
  | .list items => blockOfOutlines? items
  | _ => none

/-- The statements of outlines. -/
def blockOfOutlines? : List Data → Option (List Stmt)
  | [] => some []
  | item :: rest => do return (← Stmt.ofOutline? item) :: (← blockOfOutlines? rest)

end

/-- A tree: a program, or a node of one with what is below it. -/
inductive Tree where
  | program (program : Program)
  | node (node : TreeNode)

namespace Tree

def outline : Tree → Data
  | program whole => whole.outline
  | node (.expr e) => e.outline
  | node (.stmt s) => s.outline
  | node (.branch p condition body) =>
    outlineNode "elif" p [("condition", condition.outline), ("body", .list (outlineBlock body))]

/-- An expression is the same tree as the statement that consists of it. -/
def asStatement : Tree → Tree
  | node (.expr e) => node (.stmt (.expression e))
  | tree => tree

/-- The tree of an outline. What is no statement is a program or a branch. -/
def ofOutline? (data : Data) : Option Tree :=
  match Stmt.ofOutline? data with
  | some s => some (node (.stmt s))
  | none =>
    match data with
    | .record [_, (_, body), (_, line), (_, column)] => do
      return program ⟨← Position.ofOutline? line column, ← blockOfOutline? body⟩
    | .record [_, (_, condition), (_, body), (_, line), (_, column)] => do
      let p ← Position.ofOutline? line column
      return node (.branch p (← Expr.ofOutline? condition) (← blockOfOutline? body))
    | _ => none

end Tree

/-- The trees that the parser gives. -/
inductive Parsed : Tree → Prop
  | program {tokens program} : parse tokens = .ok program → Parsed (.program program)
  | node {tokens program node} : parse tokens = .ok program → program.Has node →
      Parsed (.node node)

/-! ## Parts of nodes -/

@[simp] theorem Data.text?_text (value : String) : (Data.text value).text? = some value := rfl

@[simp] theorem Data.boolean?_boolean (value : Bool) :
    (Data.boolean value).boolean? = some value := rfl

@[simp] theorem Data.texts?_map (names : List String) :
    (Data.list (names.map .text)).texts? = some names := by
  unfold texts?
  induction names with
  | nil => rfl
  | cons name rest ih =>
    simp only at ih
    simp [ih]

@[simp] theorem Position.ofOutline?_integer (p : Position) :
    Position.ofOutline? (.integer p.line) (.integer p.column) = some p := rfl

@[simp] theorem elementsOfOutline?_list (items : List Data) :
    elementsOfOutline? (.list items) = elementsOfOutlines? items := by rw [elementsOfOutline?]

@[simp] theorem propertiesOfOutline?_list (items : List Data) :
    propertiesOfOutline? (.list items) = propertiesOfOutlines? items := by
  rw [propertiesOfOutline?]

@[simp] theorem blockOfOutline?_list (items : List Data) :
    blockOfOutline? (.list items) = blockOfOutlines? items := by rw [blockOfOutline?]

@[simp] theorem fallbackOfOutline?_list (items : List Data) (last : Fallback) :
    fallbackOfOutline? (.list items) last = branchesOfOutlines? items last := by
  rw [fallbackOfOutline?]

/-! ## Numbers and operators -/

theorem Number.literal_nan : Number.nan.literal = "nan" := by decide +kernel

/-- An infinite number is written by its sign and a word. -/
theorem Number.literal_of_isInfinite {x : Number} (infinite : x.isInfinite = true) :
    x.literal = if x.negative then "-inf" else "inf" := by
  have rank : x.rank = infinityRank := of_decide_eq_true infinite
  have isNumber : x.isNaN = false := decide_eq_false (by rw [rank]; exact Nat.lt_irrefl _)
  unfold literal Layout.number
  rw [isNumber, infinite]
  cases x.negative <;> rfl

theorem Number.rank_of_not_isFinite {x : Number} (isNumber : x.isNaN = false)
    (unbounded : x.isFinite = false) : x.rank = infinityRank :=
  Nat.le_antisymm (Nat.not_lt.mp (of_decide_eq_false isNumber))
    (Nat.not_lt.mp (of_decide_eq_false unbounded))

theorem Number.isNaN_ofRank (negative : Bool) {rank : Nat} (small : rank ≤ infinityRank) :
    (ofRank negative rank).isNaN = false := by
  have below : rank < signBit := Nat.lt_of_le_of_lt small (by decide)
  refine decide_eq_false ?_
  rw [rank_ofRank negative below]
  exact Nat.not_lt.mpr small

/-- Of the NaNs, an outline has only the one that numerals stand for. -/
theorem Number.ofOutline?_outline {x : Number} (canonical : x.isNaN = true → x = .nan) :
    Number.ofOutline? x.outline = some x := by
  unfold outline
  cases finite : x.isFinite with
  | true => rfl
  -- what is not finite is shown by a word
  | false =>
    rw [if_neg Bool.false_ne_true]
    cases isNumber : x.isNaN with
    | true =>
      rw [canonical isNumber, literal_nan]
      rfl
    | false =>
      have rank := rank_of_not_isFinite isNumber finite
      have same := ofRank_rank x
      rw [rank] at same
      rw [literal_of_isInfinite (decide_eq_true rank)]
      cases sign : x.negative <;> rw [sign] at same <;> exact congrArg some same

theorem Decimal.rank_le (d : Decimal) : d.rank ≤ Number.infinityRank := by
  rw [Decimal.rank_eq_exactRank]
  exact Nat.min_le_left _ _

/-- There is one NaN that numerals stand for. -/
theorem Numeral.value_of_isNaN {text : String} (noNumber : (value text).isNaN = true) :
    value text = .nan := by
  unfold value number? at noNumber ⊢
  generalize splitSign (joinDigits ((Text.trim text.toList).map Text.plainDigit)) = parts at *
  obtain ⟨negative, body⟩ := parts
  simp only at noNumber ⊢
  split
  · rfl
  · rename_i noNaN
    rw [if_neg noNaN] at noNumber
    split
    · rename_i infinite
      rw [if_pos infinite, Option.getD_some, Number.isNaN_ofRank negative (Nat.le_refl _)]
        at noNumber
      cases noNumber
    · rename_i noInfinity
      rw [if_neg noInfinity] at noNumber
      -- a decimal stands for a number, so only a text that is none is left
      cases found : decimal? body with
      | none => rfl
      | some d =>
        rw [found, Option.map_some, Option.getD_some, Decimal.toNumber,
          Number.isNaN_ofRank negative d.rank_le] at noNumber
        cases noNumber

/-- No two operators of the grammar are spelled alike. -/
theorem Grammar.Operator.ofSpelling_spelling {level : Nat} {mark : Symbol} {operator : BinaryOp}
    (stands : Grammar.Operator level mark operator) :
    BinaryOp.ofSpelling operator.spelling = operator := by
  cases stands <;> decide +kernel

theorem Grammar.Sign.ofSpelling_spelling {mark : Symbol} {operator : UnaryOp}
    (stands : Grammar.Sign mark operator) : UnaryOp.ofSpelling operator.spelling = operator := by
  cases stands <;> decide +kernel

/-! ## Expressions -/

theorem Leaf.ofOutline?_outline {token : Token} {p : Position} {e : Expr} (leaf : Leaf token p e) :
    Expr.ofOutline? e.outline = some e := by
  have shown := Number.ofOutline?_outline (@Numeral.value_of_isNaN token.text)
  cases leaf <;> simp [Expr.outline, outlineNode, Expr.ofOutline?, shown]

mutual

/-- Expressions of texts are read back. -/
theorem Expr.Text.ofOutline?_outline {text : List Token} {e : Expr} :
    e.Text text → Expr.ofOutline? e.outline = some e
  | .leaf single _ => single.ofOutline?_outline
  | .parentheses _ inner _ => inner.ofOutline?_outline
  | .array _ elements _ _ => by
    simp [Expr.outline, outlineNode, Expr.ofOutline?, elements.ofOutlines?_outlines]
  | .object _ properties _ _ => by
    simp [Expr.outline, outlineNode, Expr.ofOutline?, properties.ofOutlines?_outlines]
  | .binary left _ stands right _ => by
    simp [Expr.outline, outlineNode, Expr.ofOutline?, left.ofOutline?_outline,
      right.ofOutline?_outline, stands.ofSpelling_spelling]
  | .unary _ sign operand _ => by
    simp [Expr.outline, outlineNode, Expr.ofOutline?, operand.ofOutline?_outline,
      sign.ofSpelling_spelling]
  | .member target _ _ _ => by
    simp [Expr.outline, outlineNode, Expr.ofOutline?, target.ofOutline?_outline]
  | .arrow target _ key _ | .bracket target _ key _ _ => by
    simp [Expr.outline, outlineNode, Expr.ofOutline?, target.ofOutline?_outline,
      key.ofOutline?_outline]
  | .call callee _ arguments _ _ => by
    simp [Expr.outline, outlineNode, Expr.ofOutline?, callee.ofOutline?_outline,
      arguments.ofOutlines?_outlines]

theorem ElementsText.ofOutlines?_outlines {text : List Token} {elements : List Expr} :
    ElementsText text elements → elementsOfOutlines? (outlineElements elements) = some elements
  | .none => rfl
  | .last only => by
    simp [outlineElements, elementsOfOutlines?, only.ofOutline?_outline]
  | .more first _ others => by
    rw [outlineElements]
    simp [elementsOfOutlines?, first.ofOutline?_outline, others.ofOutlines?_outlines]

/-- A key that stands twice is read twice. -/
theorem PropertiesText.ofOutlines?_outlines {text : List Token}
    {properties : List (String × Expr)} : PropertiesText text properties →
    propertiesOfOutlines? (outlineProperties properties) = some properties
  | .none => rfl
  | .last _ _ only => by
    simp [outlineProperties, propertiesOfOutlines?, only.ofOutline?_outline]
  | .more _ _ first _ others => by
    rw [outlineProperties]
    simp [propertiesOfOutlines?, first.ofOutline?_outline, others.ofOutlines?_outlines]

end

theorem ConditionText.ofOutline?_outline {text : List Token} {condition : Expr} :
    ConditionText condition text → Expr.ofOutline? condition.outline = some condition
  | .mk _ inner _ => inner.ofOutline?_outline

/-! ## Statements -/

/-- The outline of an expression is that of no other statement. -/
theorem Expr.Text.stmt_ofOutline? {text : List Token} {e : Expr} :
    e.Text text → Stmt.ofOutline? e.outline = (Expr.ofOutline? e.outline).map .expression
  | .leaf single _ => by cases single <;> simp [Expr.outline, outlineNode, Stmt.ofOutline?]
  | .parentheses _ inner _ => inner.stmt_ofOutline?
  | .array .. | .object .. | .binary .. | .unary .. | .member .. | .arrow .. | .bracket ..
  | .call .. => by simp [Expr.outline, outlineNode, Stmt.ofOutline?]

/-- The parts of the target of an assignment are read back with the target, and so is the
assignment. -/
theorem Assigns.ofOutline?_outline {p : Position} {value target : Expr} {s : Stmt}
    (assigns : Assigns p value target s) (targetRead : Expr.ofOutline? target.outline = some target)
    (valueRead : Expr.ofOutline? value.outline = some value) :
    Stmt.ofOutline? s.outline = some s := by
  cases assigns with
  | name => simp [Stmt.outline, outlineNode, Stmt.ofOutline?, valueRead]
  | @member _ object _ =>
    -- the target is read if and only if its parts are
    have objectRead : Expr.ofOutline? object.outline = some object := by
      simpa [Expr.outline, outlineNode, Expr.ofOutline?, Option.bind_eq_some_iff] using targetRead
    simp [Stmt.outline, outlineNode, Stmt.ofOutline?, objectRead, valueRead]
  | @computed _ object key =>
    have partsRead : Expr.ofOutline? object.outline = some object ∧
        Expr.ofOutline? key.outline = some key := by
      simpa [Expr.outline, outlineNode, Expr.ofOutline?, Option.bind_eq_some_iff] using targetRead
    simp [Stmt.outline, outlineNode, Stmt.ofOutline?, partsRead, valueRead]

mutual

/-- Statements of texts are read back. -/
theorem Stmt.Text.ofOutline?_outline {text : List Token} {s : Stmt} :
    s.Text text → Stmt.ofOutline? s.outline = some s
  | .declare _ _ _ value _ => by
    simp [Stmt.outline, outlineNode, Stmt.ofOutline?, value.ofOutline?_outline]
  | .assign _ target _ value assigns _ =>
    assigns.ofOutline?_outline target.ofOutline?_outline value.ofOutline?_outline
  | .procedure _ _ _ _ body _ => by
    simp [Stmt.outline, outlineNode, Stmt.ofOutline?, body.ofOutlines?_outlines]
  | .returns _ value _ => by
    simp [Stmt.outline, outlineNode, Stmt.ofOutline?, value.ofOutline?_outline]
  | .leave _ _ | .proceed _ _ => by simp [Stmt.outline, outlineNode, Stmt.ofOutline?]
  | .incase _ condition body fallback _ => by
    obtain ⟨last, lastRead, rest⟩ := Option.bind_eq_some_iff.mp fallback.ofOutlines?_outlines
    simp [Stmt.outline, outlineNode, Stmt.ofOutline?, condition.ofOutline?_outline,
      body.ofOutlines?_outlines, lastRead, rest]
  | .through _ _ _ _ _ iterable _ body _ => by
    simp [Stmt.outline, outlineNode, Stmt.ofOutline?, iterable.ofOutline?_outline,
      body.ofOutlines?_outlines]
  | .drift _ _ init _ condition _ update _ body _ => by
    have initRead := init.ofOutline?_outline
    have updateRead := update.ofOutline?_outline
    rw [Stmt.outline]
    simp [outlineNode, Stmt.ofOutline?, initRead, condition.ofOutline?_outline,
      updateRead, body.ofOutlines?_outlines]
  | .expression value => by
    rw [Stmt.outline, value.stmt_ofOutline?, value.ofOutline?_outline, Option.map_some]

/-- The outline keeps the branches and the last block apart, so the block is read first. -/
theorem Fallback.Text.ofOutlines?_outlines {text : List Token} {fallback : Fallback} :
    fallback.Text text →
    (Fallback.ofOutline? fallback.outlineElse).bind
      (branchesOfOutlines? fallback.outlineBranches) = some fallback
  | .nothing => by
    simp [Fallback.outlineElse, Fallback.outlineBranches, Fallback.ofOutline?, branchesOfOutlines?]
  | .block _ body => by
    simp [Fallback.outlineElse, Fallback.outlineBranches, Fallback.ofOutline?, branchesOfOutlines?,
      body.ofOutlines?_outlines]
  | .elif _ condition body _ others => by
    obtain ⟨last, lastRead, rest⟩ := Option.bind_eq_some_iff.mp others.ofOutlines?_outlines
    simp [Fallback.outlineElse, Fallback.outlineBranches, outlineNode, branchesOfOutlines?,
      condition.ofOutline?_outline, body.ofOutlines?_outlines, lastRead, rest]

theorem BlockText.ofOutlines?_outlines {text : List Token} {body : List Stmt} :
    BlockText text body → blockOfOutlines? (outlineBlock body) = some body
  | .mk _ statements _ => statements.ofOutlines?_outlines

theorem StatementsText.ofOutlines?_outlines {text : List Token} {body : List Stmt} :
    StatementsText text body → blockOfOutlines? (outlineBlock body) = some body
  | .none => rfl
  | .cons first _ others => by
    simp [outlineBlock, blockOfOutlines?, first.ofOutline?_outline, others.ofOutlines?_outlines]

end

/-! ## Parsed trees -/

/-- A node of a tree is read back as a statement, if it is an expression or one. -/
theorem TreeNode.Text.ofOutline?_outline {text : List Token} {node : TreeNode} :
    node.Text text → Tree.ofOutline? (Tree.node node).outline = some (Tree.node node).asStatement
  | .expr written => by
    simp [Tree.ofOutline?, Tree.outline, Tree.asStatement, written.stmt_ofOutline?,
      written.ofOutline?_outline]
  | .stmt written => by
    simp [Tree.ofOutline?, Tree.outline, Tree.asStatement, written.ofOutline?_outline]
  | .branch _ condition body => by
    simp [Tree.ofOutline?, Tree.outline, Tree.asStatement, outlineNode, Stmt.ofOutline?,
      Expr.ofOutline?, condition.ofOutline?_outline, body.ofOutlines?_outlines]

theorem StatementsText.ofOutline?_outline {text : List Token} {program : Program}
    (written : StatementsText text program.body) :
    Tree.ofOutline? (Tree.program program).outline = some (.program program) := by
  simp [Tree.ofOutline?, Tree.outline, Program.outline, outlineNode, Stmt.ofOutline?,
    Expr.ofOutline?, written.ofOutlines?_outlines]

/-- Parsed trees have texts, so they are read back. -/
theorem Parsed.ofOutline?_outline {tree : Tree} (parsed : Parsed tree) :
    Tree.ofOutline? tree.outline = some tree.asStatement := by
  cases parsed with
  | program given => exact (parse_text given).1.ofOutline?_outline
  | node given isNode =>
    obtain ⟨text, _, placed⟩ := parse_placed given isNode
    exact placed.written.ofOutline?_outline

/-- Every parsed tree is read back from its outline, with the positions of all nodes. So different
trees have different outlines. -/
theorem outline_is_faithful (tree : Tree) (parsed : Parsed tree) :
    Tree.ofOutline? tree.outline = some tree.asStatement ∧
      ∀ other, Parsed other → other.outline = tree.outline →
        other.asStatement = tree.asStatement := by
  have read := parsed.ofOutline?_outline
  refine ⟨read, ?_⟩
  intro other otherParsed same
  -- one outline is read in one way only
  have otherRead := otherParsed.ofOutline?_outline
  rw [same, read] at otherRead
  exact (Option.some.inj otherRead).symm

/-- A key that stands twice, in a value that goes to a computed member. -/
def twiceKeyedProgram : Program :=
  ⟨⟨1, 1⟩,
    [.assignComputed ⟨1, 1⟩ (.identifier ⟨1, 1⟩ "o") (.identifier ⟨1, 3⟩ "k")
      (.object ⟨1, 6⟩ [("x", .null ⟨1, 9⟩), ("x", .string ⟨1, 16⟩ "inf")])]⟩

theorem twiceKeyedProgram_readBack :
    compile "o[k]=\x7bx:null,x:\"inf\"\x7d;" = .ok twiceKeyedProgram ∧
      Parsed (.program twiceKeyedProgram) ∧
      Tree.ofOutline? (Tree.program twiceKeyedProgram).outline =
        some (.program twiceKeyedProgram) := by
  have compiled : compile "o[k]=\x7bx:null,x:\"inf\"\x7d;" = .ok twiceKeyedProgram := by cbv
  obtain ⟨tokens, after, _, given⟩ := gives_of_compile compiled
  have parsed := Parsed.program (parse_eq_ok_iff.mpr ⟨after, given⟩)
  exact ⟨compiled, parsed, (outline_is_faithful _ parsed).1⟩

end Script
