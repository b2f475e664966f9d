import Script.Parse.Expression
import Script.Token.Lexer

/-!
# Parsing statements and programs

Keywords pick the form of a statement. A statement that starts with an identifier is first read
as an assignment and, if no `=` follows the target, once more as an expression. A `drift` loop
is first read as one that goes through an array. Parsers of statements take the parser of nested
statements as a parameter, as those of expressions do.

`compile` splits the whole text into tokens before it parses them, so a lexical fault anywhere
is reported before any other.
-/

namespace Script.Parse

/-! ## Blocks -/

/-- Statements up to a token of one of some kinds, which is left. -/
def statementsUntil (nested : Parse Stmt) (ends : List Kind) : (rounds : Nat) → Parse (List Stmt)
  | 0 => outOfBudget
  | rounds + 1 => do
    if ← check ends then return []
    let first ← nested
    return first :: (← statementsUntil nested ends rounds)

/-- Statements in braces. -/
def block (nested : Parse Stmt) (what : String) : Parse (List Stmt) := do
  let _ ← expect (.symbol .leftBrace) ("Expected '\x7b' before " ++ what)
  let body ← statementsUntil nested [.symbol .rightBrace, .endOfInput] (← budget)
  let _ ← expect (.symbol .rightBrace) ("Expected '\x7d' after " ++ what)
  return body

/-! ## Declarations and assignments -/

/-- A declaration without what ends a statement: `const` or `mut`, a name, `=` and a value. -/
def declaration : Parse Stmt := do
  let keyword ← advance
  let name ← expect .identifier "Expected variable name"
  let _ ← expect (.symbol .equals) "Expected '=' after variable name"
  let value ← expression
  return .declare keyword.position name.text
    (decide (keyword.kind = .keyword .constant)) value

/-- The assignment to a target, if it is a name or a member. -/
def assignmentTo? (position : Position) (target value : Expr) : Option Stmt :=
  match target with
  | .identifier _ name => some (.assign position name value)
  | .member _ object property => some (.assignMember position object property value)
  | .computed _ object key => some (.assignComputed position object key value)
  | _ => none

/-- A target, `=` and a value. Declines behind the target if no `=` follows. -/
def assignment : Parse (Option Stmt) := do
  let start ← current
  let target ← expression
  match ← accept (.symbol .equals) with
  | none => return none
  | some _ =>
    let value ← expression
    let _ ← expect (.symbol .semicolon) "Expected ';' after assignment"
    match assignmentTo? start.position target value with
    | some statement => return some statement
    | none => throw (.invalidTarget start.position.line)

/-! ## Procedures -/

/-- Parameters with commas between them, at least one, none of them seen before. -/
def parametersFrom (procedure : String) (seen : List String) : (rounds : Nat) →
    Parse (List String)
  | 0 => outOfBudget
  | rounds + 1 => do
    let parameter ← expect .identifier "Expected parameter name"
    if seen.contains parameter.text then
      throw (.duplicateParameter parameter.text procedure parameter.position.line)
    let seen := seen ++ [parameter.text]
    match ← accept (.symbol .comma) with
    | some _ => parametersFrom procedure seen rounds
    | none => return seen

/-- A procedure: `procedure`, a name, parameters in parentheses and a body. -/
def procedure (nested : Parse Stmt) : Parse Stmt := do
  let keyword ← expect (.keyword .procedure) "Expected 'procedure' keyword"
  let name ← expect .identifier "Expected procedure name"
  let _ ← expect (.symbol .leftParen) "Expected '(' after procedure name"
  let parameters ←
    if ← check [.symbol .rightParen] then pure [] else parametersFrom name.text [] (← budget)
  let _ ← expect (.symbol .rightParen) "Expected ')' after parameters"
  let body ← block nested "procedure body"
  return .procedure keyword.position name.text parameters body

/-- A return: `returns` and a value. -/
def returns : Parse Stmt := do
  let keyword ← expect (.keyword .returns) "Expected 'returns' keyword"
  let value ← expression
  let _ ← expect (.symbol .semicolon) "Expected ';' after return statement"
  return .returns keyword.position value

/-! ## Conditionals -/

/-- A condition in parentheses. -/
def condition (keyword : String) : Parse Expr := do
  let _ ← expect (.symbol .leftParen) s!"Expected '(' after '{keyword}'"
  let value ← expression
  let _ ← expect (.symbol .rightParen) s!"Expected ')' after {keyword} condition"
  return value

/-- Further conditions, and a block for when none holds. -/
def fallback (nested : Parse Stmt) : (rounds : Nat) → Parse Fallback
  | 0 => outOfBudget
  | rounds + 1 => do
    match ← accept (.keyword .elif) with
    | some keyword =>
      let test ← condition "elif"
      let body ← block nested "elif body"
      return .elif keyword.position test body (← fallback nested rounds)
    | none =>
      match ← accept (.keyword .otherwise) with
      | some _ => return .block (← block nested "else body")
      | none => return .nothing

/-- A conditional: `incase`, a condition, a body and a fallback. -/
def incase (nested : Parse Stmt) : Parse Stmt := do
  let keyword ← expect (.keyword .incase) "Expected 'incase' keyword"
  let test ← condition "incase"
  let body ← block nested "incase body"
  return .incase keyword.position test body (← fallback nested (← budget))

/-! ## Loops -/

/-- The loop through an array, from behind its opening parenthesis. Declines if no name with
`through` behind it follows. -/
def throughLoop (nested : Parse Stmt) (position : Position) : Parse (Option Stmt) := do
  let binding ← advance
  match ← accept .identifier with
  | none => return none
  | some name =>
    match ← accept (.keyword .through) with
    | none => return none
    | some _ =>
      let iterable ← expression
      let _ ← expect (.symbol .rightParen) "Expected ')' after iterable"
      let body ← block nested "loop body"
      return some <| .through position name.text
        (decide (binding.kind = .keyword .constant)) iterable body

/-- The counting loop, from behind its opening parenthesis. -/
def countingLoop (nested : Parse Stmt) (position : Position) : Parse Stmt := do
  let init ← declaration
  let _ ← expect (.symbol .semicolon) "Expected ';' after loop initialization"
  let test ← expression
  let _ ← expect (.symbol .semicolon) "Expected ';' after loop condition"
  let target ← expect .identifier "Expected variable name in update"
  let _ ← expect (.symbol .equals) "Expected '=' in update"
  let update ← expression
  let _ ← expect (.symbol .rightParen) "Expected ')' after loop header"
  let body ← block nested "loop body"
  return .drift position init test (.assign target.position target.text update) body

/-- A loop of either form. -/
def drift (nested : Parse Stmt) : Parse Stmt := do
  let keyword ← expect (.keyword .drift) "Expected 'drift' keyword"
  let _ ← expect (.symbol .leftParen) "Expected '(' after 'drift'"
  if !(← check [.keyword .constant, .keyword .mutable]) then
    throw (.expected "Expected 'mut' or 'const' in loop header" (← current))
  match ← attempt (throughLoop nested keyword.position) with
  | some loop => return loop
  | none => countingLoop nested keyword.position

/-! ## Statements -/

/-- An expression as a statement. -/
def expressionStatement : Parse Stmt := do
  let value ← expression
  let _ ← expect (.symbol .semicolon) "Expected ';' after expression"
  return .expression value

/-- A statement whose nested statements are read by a given parser. -/
def statementWith (nested : Parse Stmt) : Parse Stmt := do
  let token ← current
  match token.kind with
  | .keyword .constant | .keyword .mutable =>
    let statement ← declaration
    let _ ← expect (.symbol .semicolon) "Expected ';' after variable declaration"
    return statement
  | .keyword .procedure => procedure nested
  | .keyword .returns => returns
  | .keyword .leave =>
    let _ ← advance
    let _ ← expect (.symbol .semicolon) "Expected ';' after break statement"
    return .leave token.position
  | .keyword .proceed =>
    let _ ← advance
    let _ ← expect (.symbol .semicolon) "Expected ';' after continue statement"
    return .proceed token.position
  | .keyword .incase => incase nested
  | .keyword .drift => drift nested
  | .identifier =>
    match ← attempt assignment with
    | some statement => return statement
    | none => expressionStatement
  | _ => expressionStatement

/-- A statement nested at most so deep. -/
def statementUpTo : (depth : Nat) → Parse Stmt
  | 0 => outOfBudget
  | depth + 1 => statementWith (statementUpTo depth)

/-- A statement. -/
def statement : Parse Stmt := do statementUpTo (← budget)

/-- Statements up to the end of input. -/
def program : Parse Program := do
  let first ← current
  let body ← statementsUntil statement [.endOfInput] (← budget)
  return ⟨first.position, body⟩

end Script.Parse

namespace Script

/-! ## From source text to program -/

/-- The program of a token list. -/
def parse (tokens : List Token) : Except SyntaxFault Program :=
  (Parse.program.run (.ofList tokens) 0).1

/-- Why a source text is no program. -/
inductive CompileFault where
  | lexical (fault : LexFault)
  | grammatical (fault : SyntaxFault)
deriving DecidableEq, Repr

/-- What is said about a source text that is no program. -/
def CompileFault.message : CompileFault → String
  | lexical fault => fault.message
  | grammatical fault => fault.message

/-- The program of a source text. -/
def compile (source : String) : Except CompileFault Program :=
  match tokenize source with
  | .error fault => .error (.lexical fault)
  | .ok tokens =>
    match parse tokens with
    | .error fault => .error (.grammatical fault)
    | .ok program => .ok program

end Script
