import Script.Number
import Script.Source

/-!
# Trees

The tree of a program: expressions, statements, and the program as a list of statements. Each
node has the position of its text, which takes no part in its meaning; `erase` sets all
positions alike, so two trees with the same erasure differ in layout only.
-/

namespace Script

/-! ## Operators -/

/-- The binary operators. `other` is an operator without a rule. -/
inductive BinaryOp where
  | or | and | bitOr | bitAnd | equal | notEqual | less | greater | atMost | atLeast
  | add | subtract | multiply | divide
  | other (spelling : String)
deriving DecidableEq, Repr

namespace BinaryOp

/-- The operators with a rule, loosest first. -/
def all : List BinaryOp :=
  [.or, .and, .bitOr, .bitAnd, .equal, .notEqual, .less, .greater, .atMost, .atLeast,
   .add, .subtract, .multiply, .divide]

/-- How an operator is written. -/
def spelling : BinaryOp → String
  | .or => "||"
  | .and => "&&"
  | .bitOr => "|"
  | .bitAnd => "&"
  | .equal => "=="
  | .notEqual => "!="
  | .less => "<"
  | .greater => ">"
  | .atMost => "<="
  | .atLeast => ">="
  | .add => "+"
  | .subtract => "-"
  | .multiply => "*"
  | .divide => "/"
  | .other spelling => spelling

/-- The operator with a spelling. -/
def ofSpelling (text : String) : BinaryOp := (all.find? (·.spelling = text)).getD (.other text)

end BinaryOp

/-- The operators that stand before their operand. `other` is an operator without a rule. -/
inductive UnaryOp where
  | not
  | negate
  | other (spelling : String)
deriving DecidableEq, Repr

namespace UnaryOp

/-- How an operator is written. -/
def spelling : UnaryOp → String
  | .not => "!"
  | .negate => "-"
  | .other spelling => spelling

/-- The operator with a spelling. -/
def ofSpelling (text : String) : UnaryOp :=
  if text = "!" then .not else if text = "-" then .negate else .other text

end UnaryOp

/-! ## Expressions -/

/-- An expression. -/
inductive Expr where
  | number (position : Position) (value : Number)
  | string (position : Position) (value : String)
  | boolean (position : Position) (value : Bool)
  | null (position : Position)
  | nan (position : Position)
  | identifier (position : Position) (name : String)
  | array (position : Position) (elements : List Expr)
  | object (position : Position) (properties : List (String × Expr))
  | binary (position : Position) (operator : BinaryOp) (left right : Expr)
  | unary (position : Position) (operator : UnaryOp) (operand : Expr)
  | member (position : Position) (object : Expr) (property : String)
  | computed (position : Position) (object key : Expr)
  | call (position : Position) (callee : Expr) (arguments : List Expr)
  /-- A node of some other kind where an expression should stand; it has no value. -/
  | foreign (position : Position) (kind : String)
deriving BEq, Inhabited, Repr

namespace Expr

/-- Where an expression starts. -/
def position : Expr → Position
  | number p _ | string p _ | boolean p _ | null p | nan p | identifier p _ | array p _
  | object p _ | binary p _ _ _ | unary p _ _ | member p _ _ | computed p _ _ | call p _ _
  | foreign p _ => p

end Expr

mutual

/-- An expression without its positions. -/
def Expr.erase : Expr → Expr
  | .number _ value => .number default value
  | .string _ value => .string default value
  | .boolean _ value => .boolean default value
  | .null _ => .null default
  | .nan _ => .nan default
  | .identifier _ name => .identifier default name
  | .array _ elements => .array default (eraseElements elements)
  | .object _ properties => .object default (eraseProperties properties)
  | .binary _ operator left right => .binary default operator left.erase right.erase
  | .unary _ operator operand => .unary default operator operand.erase
  | .member _ object property => .member default object.erase property
  | .computed _ object key => .computed default object.erase key.erase
  | .call _ callee arguments => .call default callee.erase (eraseElements arguments)
  | .foreign _ kind => .foreign default kind

/-- Expressions without their positions. -/
def eraseElements : List Expr → List Expr
  | [] => []
  | e :: rest => e.erase :: eraseElements rest

/-- Properties without their positions. -/
def eraseProperties : List (String × Expr) → List (String × Expr)
  | [] => []
  | (key, e) :: rest => (key, e.erase) :: eraseProperties rest

end

/-! ## Statements -/

mutual

/-- A statement. -/
inductive Stmt where
  | declare (position : Position) (name : String) (constant : Bool) (value : Expr)
  | assign (position : Position) (name : String) (value : Expr)
  | assignMember (position : Position) (object : Expr) (property : String) (value : Expr)
  | assignComputed (position : Position) (object key value : Expr)
  | procedure (position : Position) (name : String) (parameters : List String)
      (body : List Stmt)
  | returns (position : Position) (value : Expr)
  | leave (position : Position)
  | proceed (position : Position)
  | incase (position : Position) (condition : Expr) (body : List Stmt) (fallback : Fallback)
  | drift (position : Position) (init : Stmt) (condition : Expr) (update : Stmt)
      (body : List Stmt)
  | through (position : Position) (name : String) (constant : Bool) (iterable : Expr)
      (body : List Stmt)
  | expression (value : Expr)

/-- What a conditional does when its condition is false: nothing, a block, or another
condition with a block and a fallback of its own. -/
inductive Fallback where
  | nothing
  | block (body : List Stmt)
  | elif (position : Position) (condition : Expr) (body : List Stmt) (fallback : Fallback)

end

deriving instance BEq, Repr for Stmt, Fallback

instance : Inhabited Stmt := ⟨.leave default⟩

instance : Inhabited Fallback := ⟨.nothing⟩

namespace Stmt

/-- Where a statement starts. -/
def position : Stmt → Position
  | declare p _ _ _ | assign p _ _ | assignMember p _ _ _ | assignComputed p _ _ _
  | procedure p _ _ _ | returns p _ | leave p | proceed p | incase p _ _ _ | drift p _ _ _ _
  | through p _ _ _ _ => p
  | expression e => e.position

/-- Whether a statement is an expression. -/
def isExpression : Stmt → Bool
  | expression _ => true
  | _ => false

end Stmt

mutual

/-- A statement without its positions. -/
def Stmt.erase : Stmt → Stmt
  | .declare _ name constant value => .declare default name constant value.erase
  | .assign _ name value => .assign default name value.erase
  | .assignMember _ object property value =>
    .assignMember default object.erase property value.erase
  | .assignComputed _ object key value =>
    .assignComputed default object.erase key.erase value.erase
  | .procedure _ name parameters body => .procedure default name parameters (eraseBlock body)
  | .returns _ value => .returns default value.erase
  | .leave _ => .leave default
  | .proceed _ => .proceed default
  | .incase _ condition body fallback =>
    .incase default condition.erase (eraseBlock body) fallback.erase
  | .drift _ init condition update body =>
    .drift default init.erase condition.erase update.erase (eraseBlock body)
  | .through _ name constant iterable body =>
    .through default name constant iterable.erase (eraseBlock body)
  | .expression value => .expression value.erase

/-- A fallback without its positions. -/
def Fallback.erase : Fallback → Fallback
  | .nothing => .nothing
  | .block body => .block (eraseBlock body)
  | .elif _ condition body fallback =>
    .elif default condition.erase (eraseBlock body) fallback.erase

/-- Statements without their positions. -/
def eraseBlock : List Stmt → List Stmt
  | [] => []
  | s :: rest => s.erase :: eraseBlock rest

end

/-! ## Programs -/

/-- A program: its statements, and the position of its first token. -/
structure Program where
  position : Position
  body : List Stmt
deriving BEq, Repr, Inhabited

namespace Program

/-- A program without its positions. -/
def erase (program : Program) : Program := ⟨default, eraseBlock program.body⟩

/-- Whether two programs differ in layout only. -/
def same (first second : Program) : Bool := first.erase == second.erase

end Program

end Script
