import Script.Number.Numeral
import Script.Token
import Script.Tree

/-!
# The grammar

What a program is, said without a parser. A phrase is read from the front of a token list:
`Level ends n input e rest` says that `input` starts with an expression `e` and goes on with
`rest`, and likewise for the other phrases. Trees carry no positions here: every position is
`default`, so a tree of the grammar is its own erasure.

* The binary operators stand on eight levels, loosest first, and each level associates to the
  left.
* The key behind an arrow is an expression of any level. So that `a -> b + c` has one reading,
  the key is the longest expression that can be read there (`Longest`). The relation takes the
  condition on keys as a parameter, `ends`: without a condition it is the *plain* grammar, in
  which `Longest` says what can be read.
* Statements need no condition: no two forms of them start alike and go on alike.
-/

namespace Script.Grammar

/-! ## Operators -/

/-- `Operator level mark operator`: a symbol stands for a binary operator of a level. -/
inductive Operator : Nat → Symbol → BinaryOp → Prop
  | or : Operator 0 .or .or
  | and : Operator 1 .and .and
  | bitOr : Operator 2 .pipe .bitOr
  | bitAnd : Operator 3 .ampersand .bitAnd
  | equal : Operator 4 .equalEqual .equal
  | notEqual : Operator 4 .notEqual .notEqual
  | less : Operator 5 .less .less
  | greater : Operator 5 .greater .greater
  | atMost : Operator 5 .lessEqual .atMost
  | atLeast : Operator 5 .greaterEqual .atLeast
  | add : Operator 6 .plus .add
  | subtract : Operator 6 .minus .subtract
  | multiply : Operator 7 .star .multiply
  | divide : Operator 7 .slash .divide

/-- A symbol stands for an operator before its operand. -/
inductive Sign : Symbol → UnaryOp → Prop
  | not : Sign .not .not
  | negate : Sign .minus .negate

/-- The number of levels. -/
def levelCount : Nat := 8

/-! ## Expressions -/

/-- A condition on where the key of an arrow, read from an input, may end: at which rest. -/
abbrev KeyEnds := List Token → List Token → Prop

mutual

/-- An expression whose operators outside all brackets and keys have level `n` or a tighter
one. -/
inductive Level (ends : KeyEnds) : Nat → List Token → Expr → List Token → Prop
  | operator {n input mark operator left right token middle rest} :
      Level ends n input left (token :: middle) → token.kind = .symbol mark →
      Operator n mark operator → Level ends (n + 1) middle right rest →
      Level ends n input (.binary default operator left right) rest
  | tighter {n input e rest} : n < levelCount → Level ends (n + 1) input e rest →
      Level ends n input e rest
  | unary {input e rest} : Unary ends input e rest → Level ends levelCount input e rest

/-- A chain with the operators before it. -/
inductive Unary (ends : KeyEnds) : List Token → Expr → List Token → Prop
  | sign {token mark operator input e rest} : token.kind = .symbol mark → Sign mark operator →
      Unary ends input e rest → Unary ends (token :: input) (.unary default operator e) rest
  | chain {input e rest} : Chain ends input e rest → Unary ends input e rest

/-- A primary with members, keys and calls behind it. -/
inductive Chain (ends : KeyEnds) : List Token → Expr → List Token → Prop
  | primary {input e rest} : Primary ends input e rest → Chain ends input e rest
  | member {input e dot name rest} : Chain ends input e (dot :: name :: rest) →
      dot.kind = .symbol .dot → name.kind = .identifier →
      Chain ends input (.member default e name.text) rest
  | arrow {input e arrow middle key rest} : Chain ends input e (arrow :: middle) →
      arrow.kind = .symbol .arrow → Level ends 0 middle key rest → ends middle rest →
      Chain ends input (.computed default e key) rest
  | bracket {input e opening middle key closing rest} :
      Chain ends input e (opening :: middle) → opening.kind = .symbol .leftBracket →
      Level ends 0 middle key (closing :: rest) → closing.kind = .symbol .rightBracket →
      Chain ends input (.computed default e key) rest
  | call {input e opening middle arguments rest} :
      Chain ends input e (opening :: middle) → opening.kind = .symbol .leftParen →
      Elements ends .rightParen middle arguments rest →
      Chain ends input (.call default e arguments) rest

/-- A literal, a name, an array, an object or an expression in parentheses, which are no part of
the tree. -/
inductive Primary (ends : KeyEnds) : List Token → Expr → List Token → Prop
  | number {token value rest} : token.kind = .number →
      Numeral.number? token.text = some value →
      Primary ends (token :: rest) (.number default value) rest
  | string {token rest} : token.kind = .string →
      Primary ends (token :: rest) (.string default token.text) rest
  | yes {token rest} : token.kind = .keyword .yes →
      Primary ends (token :: rest) (.boolean default true) rest
  | no {token rest} : token.kind = .keyword .no →
      Primary ends (token :: rest) (.boolean default false) rest
  | null {token rest} : token.kind = .keyword .null ∨ token.kind = .keyword .nullPointer →
      Primary ends (token :: rest) (.null default) rest
  | nan {token rest} : token.kind = .keyword .notANumber →
      Primary ends (token :: rest) (.nan default) rest
  | identifier {token rest} : token.kind = .identifier →
      Primary ends (token :: rest) (.identifier default token.text) rest
  | array {token input elements rest} : token.kind = .symbol .leftBracket →
      Elements ends .rightBracket input elements rest →
      Primary ends (token :: input) (.array default elements) rest
  | object {token input properties rest} : token.kind = .symbol .leftBrace →
      Properties ends input properties rest →
      Primary ends (token :: input) (.object default properties) rest
  | parentheses {opening input e closing rest} : opening.kind = .symbol .leftParen →
      Level ends 0 input e (closing :: rest) → closing.kind = .symbol .rightParen →
      Primary ends (opening :: input) e rest

/-- Expressions with commas between them, perhaps none, and a closing symbol. -/
inductive Elements (ends : KeyEnds) : Symbol → List Token → List Expr → List Token → Prop
  | none {closing token rest} : token.kind = .symbol closing →
      Elements ends closing (token :: rest) [] rest
  | some {closing input elements token rest} : Items ends input elements (token :: rest) →
      token.kind = .symbol closing → Elements ends closing input elements rest

/-- Expressions with commas between them, at least one. -/
inductive Items (ends : KeyEnds) : List Token → List Expr → List Token → Prop
  | last {input e rest} : Level ends 0 input e rest → Items ends input [e] rest
  | more {input e comma middle items rest} : Level ends 0 input e (comma :: middle) →
      comma.kind = .symbol .comma → Items ends middle items rest →
      Items ends input (e :: items) rest

/-- Keys with values and commas between them, perhaps none, and a closing brace. -/
inductive Properties (ends : KeyEnds) :
    List Token → List (String × Expr) → List Token → Prop
  | none {token rest} : token.kind = .symbol .rightBrace →
      Properties ends (token :: rest) [] rest
  | some {input properties token rest} : Entries ends input properties (token :: rest) →
      token.kind = .symbol .rightBrace → Properties ends input properties rest

/-- Keys with values and commas between them, at least one. -/
inductive Entries (ends : KeyEnds) : List Token → List (String × Expr) → List Token → Prop
  | last {key colon input e rest} : key.kind = .identifier → colon.kind = .symbol .colon →
      Level ends 0 input e rest → Entries ends (key :: colon :: input) [(key.text, e)] rest
  | more {key colon input e comma middle entries rest} : key.kind = .identifier →
      colon.kind = .symbol .colon → Level ends 0 input e (comma :: middle) →
      comma.kind = .symbol .comma → Entries ends middle entries rest →
      Entries ends (key :: colon :: input) ((key.text, e) :: entries) rest

end

/-- A plain expression: keys may end anywhere. -/
abbrev Plain : List Token → Expr → List Token → Prop := Level (fun _ _ => True) 0

/-- Nothing longer than what lies between an input and a rest can be read as an expression. -/
def Longest (input rest : List Token) : Prop :=
  ∀ e other, Plain input e other → rest.length ≤ other.length

/-- An expression: each key of an arrow is the longest possible one. -/
abbrev Expression : List Token → Expr → List Token → Prop := Level Longest 0

/-! ## Statements -/

/-- `Assignment target value statement`: a statement assigns to a target, which is a name, a
member or a computed member. -/
inductive Assignment : Expr → Expr → Stmt → Prop
  | name {name value} : Assignment (.identifier default name) value (.assign default name value)
  | member {object property value} : Assignment (.member default object property) value
      (.assignMember default object property value)
  | computed {object key value} : Assignment (.computed default object key) value
      (.assignComputed default object key value)

/-- `Declarator kind constant`: a keyword declares constants, or names that can be assigned to. -/
inductive Declarator : Kind → Bool → Prop
  | constant : Declarator (.keyword .constant) true
  | mutable : Declarator (.keyword .mutable) false

/-- A declaration without a semicolon. -/
inductive Declaration : List Token → Stmt → List Token → Prop
  | mk {keyword constant name equals input value rest} : Declarator keyword.kind constant →
      name.kind = .identifier → equals.kind = .symbol .equals → Expression input value rest →
      Declaration (keyword :: name :: equals :: input)
        (.declare default name.text constant value) rest

/-- Names with commas between them, at least one. -/
inductive Names : List Token → List String → List Token → Prop
  | last {name rest} : name.kind = .identifier → Names (name :: rest) [name.text] rest
  | more {name comma input names rest} : name.kind = .identifier →
      comma.kind = .symbol .comma → Names input names rest →
      Names (name :: comma :: input) (name.text :: names) rest

/-- Parameters, all different, and a closing parenthesis. -/
inductive Parameters : List Token → List String → List Token → Prop
  | none {closing rest} : closing.kind = .symbol .rightParen →
      Parameters (closing :: rest) [] rest
  | some {input names closing rest} : Names input names (closing :: rest) → names.Nodup →
      closing.kind = .symbol .rightParen → Parameters input names rest

/-- A condition in parentheses. -/
inductive Condition : List Token → Expr → List Token → Prop
  | mk {opening input e closing rest} : opening.kind = .symbol .leftParen →
      Expression input e (closing :: rest) → closing.kind = .symbol .rightParen →
      Condition (opening :: input) e rest

mutual

/-- A statement. -/
inductive Statement : List Token → Stmt → List Token → Prop
  | declare {input declaration semicolon rest} :
      Declaration input declaration (semicolon :: rest) →
      semicolon.kind = .symbol .semicolon → Statement input declaration rest
  | assign {first input target equals middle value semicolon rest statement} :
      first.kind = .identifier → Expression (first :: input) target (equals :: middle) →
      equals.kind = .symbol .equals → Expression middle value (semicolon :: rest) →
      semicolon.kind = .symbol .semicolon → Assignment target value statement →
      Statement (first :: input) statement rest
  | procedure {keyword name opening input parameters middle body rest} :
      keyword.kind = .keyword .procedure → name.kind = .identifier →
      opening.kind = .symbol .leftParen → Parameters input parameters middle →
      Block middle body rest →
      Statement (keyword :: name :: opening :: input)
        (.procedure default name.text parameters body) rest
  | returns {keyword input value semicolon rest} : keyword.kind = .keyword .returns →
      Expression input value (semicolon :: rest) → semicolon.kind = .symbol .semicolon →
      Statement (keyword :: input) (.returns default value) rest
  | leave {keyword semicolon rest} : keyword.kind = .keyword .leave →
      semicolon.kind = .symbol .semicolon →
      Statement (keyword :: semicolon :: rest) (.leave default) rest
  | proceed {keyword semicolon rest} : keyword.kind = .keyword .proceed →
      semicolon.kind = .symbol .semicolon →
      Statement (keyword :: semicolon :: rest) (.proceed default) rest
  | incase {keyword input condition middle body last fallback rest} :
      keyword.kind = .keyword .incase → Condition input condition middle →
      Block middle body last → Otherwise last fallback rest →
      Statement (keyword :: input) (.incase default condition body fallback) rest
  | through {keyword opening binding constant name through input iterable closing middle body
      rest} : keyword.kind = .keyword .drift → opening.kind = .symbol .leftParen →
      Declarator binding.kind constant → name.kind = .identifier →
      through.kind = .keyword .through → Expression input iterable (closing :: middle) →
      closing.kind = .symbol .rightParen → Block middle body rest →
      Statement (keyword :: opening :: binding :: name :: through :: input)
        (.through default name.text constant iterable body) rest
  | drift {keyword opening input init first afterInit condition second name equals update value
      closing middle body rest} :
      keyword.kind = .keyword .drift → opening.kind = .symbol .leftParen →
      Declaration input init (first :: afterInit) → first.kind = .symbol .semicolon →
      Expression afterInit condition (second :: name :: equals :: update) →
      second.kind = .symbol .semicolon → name.kind = .identifier →
      equals.kind = .symbol .equals → Expression update value (closing :: middle) →
      closing.kind = .symbol .rightParen → Block middle body rest →
      Statement (keyword :: opening :: input)
        (.drift default init condition (.assign default name.text value) body) rest
  | expression {input e semicolon rest} : Expression input e (semicolon :: rest) →
      semicolon.kind = .symbol .semicolon → Statement input (.expression e) rest

/-- What follows the body of a conditional: further conditions, and a block for when none
holds. -/
inductive Otherwise : List Token → Fallback → List Token → Prop
  | nothing {rest} : Otherwise rest .nothing rest
  | block {keyword input body rest} : keyword.kind = .keyword .otherwise →
      Block input body rest → Otherwise (keyword :: input) (.block body) rest
  | elif {keyword input condition middle body last fallback rest} :
      keyword.kind = .keyword .elif → Condition input condition middle →
      Block middle body last → Otherwise last fallback rest →
      Otherwise (keyword :: input) (.elif default condition body fallback) rest

/-- Statements in braces. -/
inductive Block : List Token → List Stmt → List Token → Prop
  | mk {opening input body closing rest} : opening.kind = .symbol .leftBrace →
      Statements input body (closing :: rest) → closing.kind = .symbol .rightBrace →
      Block (opening :: input) body rest

/-- Statements one behind the other. -/
inductive Statements : List Token → List Stmt → List Token → Prop
  | none {rest} : Statements rest [] rest
  | cons {input first middle others rest} : Statement input first middle →
      Statements middle others rest → Statements input (first :: others) rest

end

/-! ## Programs -/

/-- Every number token holds a numeral. -/
def ValidNumerals (tokens : List Token) : Prop :=
  ∀ token ∈ tokens, token.kind = .number → (Numeral.number? token.text).isSome

/-- The tokens before the first end of input. -/
def beforeEnd (tokens : List Token) : List Token :=
  tokens.takeWhile fun token => token.kind ≠ .endOfInput

/-- The tokens before the first end of input are the statements of a program, which may have any
positions. -/
def Derives (tokens : List Token) (program : Program) : Prop :=
  Statements (beforeEnd tokens) program.erase.body []

end Script.Grammar
