import Script.Number.Numeral
import Script.Parse
import Script.Tree

/-!
# Parsing expressions

Eight levels of left-associative binary operators, loosest first; then the operators that stand
before their operand; then chains of members, keys and calls; then primaries. Parentheses make
no node. Each parser takes the parser of nested expressions as a parameter, and `expression`
ties the knot by counting the nesting down.
-/

namespace Script.Parse

/-! ## Operators -/

/-- The operators of one level. -/
abbrev Level := List (Symbol × BinaryOp)

/-- The operator of a level that a kind of token stands for. -/
def Level.operator? (level : Level) : Kind → Option BinaryOp
  | .symbol mark => level.lookup mark
  | _ => none

/-- The levels, loosest first. -/
def levels : List Level :=
  [[(.or, .or)],
   [(.and, .and)],
   [(.pipe, .bitOr)],
   [(.ampersand, .bitAnd)],
   [(.equalEqual, .equal), (.notEqual, .notEqual)],
   [(.less, .less), (.greater, .greater), (.lessEqual, .atMost), (.greaterEqual, .atLeast)],
   [(.plus, .add), (.minus, .subtract)],
   [(.star, .multiply), (.slash, .divide)]]

/-- The levels from a number on, all eight numbered from zero. A negative number counts back
from the tightest level, behind which all levels follow once more. -/
def levelsFrom? (number : Int) : Option (List Level) :=
  if number = levels.length then some []
  else
    (Offset.index? number levels.length).map fun index =>
      levels.drop index ++ if number < 0 then levels else []

/-- The operator before an operand that a kind of token stands for. -/
def unaryOperator? : Kind → Option UnaryOp
  | .symbol .not => some .not
  | .symbol .minus => some .negate
  | _ => none

/-! ## Primaries -/

/-- A key, a colon and a value. -/
def property (nested : Parse Expr) : Parse (String × Expr) := do
  let key ← expect .identifier "Expected property key"
  let _ ← expect (.symbol .colon) "Expected ':' after property key"
  return (key.text, ← nested)

/-- The arguments of a call, from behind its opening parenthesis. -/
def arguments (nested : Parse Expr) : Parse (List Expr) :=
  commaList nested .rightParen "Expected ')' after arguments"

/-- A literal, a name, an array, an object or an expression in parentheses. -/
def primary (nested : Parse Expr) : Parse Expr := do
  let token ← current
  let position := token.position
  match token.kind with
  | .number =>
    let _ ← advance
    return .number position (Numeral.value token.text)
  | .string =>
    let _ ← advance
    return .string position token.text
  | .keyword .yes =>
    let _ ← advance
    return .boolean position true
  | .keyword .no =>
    let _ ← advance
    return .boolean position false
  | .keyword .null | .keyword .nullPointer =>
    let _ ← advance
    return .null position
  | .keyword .notANumber =>
    let _ ← advance
    return .nan position
  | .identifier =>
    let _ ← advance
    return .identifier position token.text
  | .symbol .leftBracket =>
    let _ ← advance
    return .array position (← commaList nested .rightBracket "Expected ']' after array elements")
  | .symbol .leftBrace =>
    let _ ← advance
    return .object position
      (← commaList (property nested) .rightBrace "Expected '\x7d' after object properties")
  | .symbol .leftParen =>
    let _ ← advance
    let inner ← nested
    let _ ← expect (.symbol .rightParen) "Expected ')' after expression"
    return inner
  | _ => throw (.unexpected token)

/-! ## Chains and operators -/

/-- One link behind an expression: a member, a key or a call. Declines if none follows. -/
def link (nested : Parse Expr) (inner : Expr) : Parse (Option Expr) := do
  match ← currentKind with
  | .symbol .dot =>
    let _ ← advance
    let name ← expect .identifier "Expected property name after '.'"
    return some (.member inner.position inner name.text)
  | .symbol .arrow =>
    let _ ← advance
    return some (.computed inner.position inner (← nested))
  | .symbol .leftBracket =>
    let _ ← advance
    let key ← nested
    let _ ← expect (.symbol .rightBracket) "Expected ']' after index"
    return some (.computed inner.position inner key)
  | .symbol .leftParen =>
    let _ ← advance
    return some (.call inner.position inner (← arguments nested))
  | _ => return none

/-- All links behind an expression. -/
def links (nested : Parse Expr) : (rounds : Nat) → Expr → Parse Expr
  | 0, _ => outOfBudget
  | rounds + 1, inner => do
    match ← link nested inner with
    | some outer => links nested rounds outer
    | none => return inner

/-- A primary with its links. -/
def chain (nested : Parse Expr) : Parse Expr := do links nested (← budget) (← primary nested)

/-- Operators before a chain. -/
def unaryUpTo (nested : Parse Expr) : (rounds : Nat) → Parse Expr
  | 0 => outOfBudget
  | rounds + 1 => do
    let token ← current
    match unaryOperator? token.kind with
    | some operator =>
      let _ ← advance
      return .unary token.position operator (← unaryUpTo nested rounds)
    | none => chain nested

/-- A chain with the operators before it. -/
def unary (nested : Parse Expr) : Parse Expr := do unaryUpTo nested (← budget)

/-- The operators of one level behind a first operand. -/
def operators (level : Level) (operand : Parse Expr) : (rounds : Nat) → Expr → Parse Expr
  | 0, _ => outOfBudget
  | rounds + 1, left => do
    match level.operator? (← currentKind) with
    | some operator =>
      let _ ← advance
      let right ← operand
      operators level operand rounds (.binary left.position operator left right)
    | none => return left

/-- An expression of some levels of operators. -/
def binary (nested : Parse Expr) : List Level → Parse Expr
  | [] => unary nested
  | level :: tighter => do
    let left ← binary nested tighter
    operators level (binary nested tighter) (← budget) left

/-! ## Expressions -/

/-- An expression nested at most so deep. -/
def expressionUpTo : (depth : Nat) → Parse Expr
  | 0 => outOfBudget
  | depth + 1 => binary (expressionUpTo depth) levels

/-- An expression. -/
def expression : Parse Expr := do expressionUpTo (← budget)

end Script.Parse
