import Script.Tree

/-!
# Renaming a parameter

`Stmt.rename` puts one name for another wherever a name stands for a variable: identifiers,
declared variables, targets of assignments, loop variables and parameters. Names of procedures,
property names and keys of objects stay. `BlockRenamed` says of two blocks that they differ in one
procedure declaration, in which a parameter has another name.
-/

namespace Script

/-- A name and the name to be put for it. -/
structure Renaming where
  old : String
  new : String

namespace Renaming

/-- Puts the new name for the old one. -/
def apply (r : Renaming) (name : String) : String := if name = r.old then r.new else name

end Renaming

/-! ## Names -/

mutual

/-- The names that stand for variables in an expression. -/
def Expr.names : Expr → List String
  | .identifier _ name => [name]
  | .array _ elements => elementNames elements
  | .object _ properties => propertyNames properties
  | .binary _ _ left right => left.names ++ right.names
  | .unary _ _ operand => operand.names
  | .member _ object _ => object.names
  | .computed _ object key => object.names ++ key.names
  | .call _ callee arguments => callee.names ++ elementNames arguments
  | _ => []

def elementNames : List Expr → List String
  | [] => []
  | e :: rest => e.names ++ elementNames rest

def propertyNames : List (String × Expr) → List String
  | [] => []
  | (_, e) :: rest => e.names ++ propertyNames rest

end

mutual

/-- The names that stand for variables or procedures in a statement. -/
def Stmt.names : Stmt → List String
  | .declare _ name _ value => name :: value.names
  | .assign _ name value => name :: value.names
  | .assignMember _ object _ value => object.names ++ value.names
  | .assignComputed _ object key value => object.names ++ key.names ++ value.names
  | .procedure _ name parameters body => name :: parameters ++ blockNames body
  | .returns _ value => value.names
  | .leave _ => []
  | .proceed _ => []
  | .incase _ condition body fallback => condition.names ++ blockNames body ++ fallback.names
  | .drift _ init condition update body =>
    init.names ++ condition.names ++ update.names ++ blockNames body
  | .through _ name _ iterable body => name :: iterable.names ++ blockNames body
  | .expression value => value.names

def Fallback.names : Fallback → List String
  | .nothing => []
  | .block body => blockNames body
  | .elif _ condition body fallback => condition.names ++ blockNames body ++ fallback.names

def blockNames : List Stmt → List String
  | [] => []
  | first :: rest => first.names ++ blockNames rest

end

mutual

/-- The names of the procedures declared in a statement, at any depth. -/
def Stmt.procedures : Stmt → List String
  | .procedure _ name _ body => name :: blockProcedures body
  | .incase _ _ body fallback => blockProcedures body ++ fallback.procedures
  | .drift _ init _ update body => init.procedures ++ update.procedures ++ blockProcedures body
  | .through _ _ _ _ body => blockProcedures body
  | _ => []

def Fallback.procedures : Fallback → List String
  | .nothing => []
  | .block body => blockProcedures body
  | .elif _ _ body fallback => blockProcedures body ++ fallback.procedures

def blockProcedures : List Stmt → List String
  | [] => []
  | first :: rest => first.procedures ++ blockProcedures rest

end

/-! ## Renaming variables -/

mutual

/-- An expression with its variables renamed. -/
def Expr.rename (change : String → String) : Expr → Expr
  | .identifier position name => .identifier position (change name)
  | .array position elements => .array position (renameElements change elements)
  | .object position properties => .object position (renameProperties change properties)
  | .binary position operator left right =>
    .binary position operator (left.rename change) (right.rename change)
  | .unary position operator operand => .unary position operator (operand.rename change)
  | .member position object property => .member position (object.rename change) property
  | .computed position object key =>
    .computed position (object.rename change) (key.rename change)
  | .call position callee arguments =>
    .call position (callee.rename change) (renameElements change arguments)
  | e => e

def renameElements (change : String → String) : List Expr → List Expr
  | [] => []
  | e :: rest => e.rename change :: renameElements change rest

def renameProperties (change : String → String) : List (String × Expr) → List (String × Expr)
  | [] => []
  | (key, e) :: rest => (key, e.rename change) :: renameProperties change rest

end

mutual

/-- A statement with its variables renamed. -/
def Stmt.rename (change : String → String) : Stmt → Stmt
  | .declare position name constant value =>
    .declare position (change name) constant (value.rename change)
  | .assign position name value => .assign position (change name) (value.rename change)
  | .assignMember position object property value =>
    .assignMember position (object.rename change) property (value.rename change)
  | .assignComputed position object key value =>
    .assignComputed position (object.rename change) (key.rename change) (value.rename change)
  | .procedure position name parameters body =>
    .procedure position name (parameters.map change) (renameBlock change body)
  | .returns position value => .returns position (value.rename change)
  | .leave position => .leave position
  | .proceed position => .proceed position
  | .incase position condition body fallback =>
    .incase position (condition.rename change) (renameBlock change body) (fallback.rename change)
  | .drift position init condition update body =>
    .drift position (init.rename change) (condition.rename change) (update.rename change)
      (renameBlock change body)
  | .through position name constant iterable body =>
    .through position (change name) constant (iterable.rename change) (renameBlock change body)
  | .expression value => .expression (value.rename change)

def Fallback.rename (change : String → String) : Fallback → Fallback
  | .nothing => .nothing
  | .block body => .block (renameBlock change body)
  | .elif position condition body fallback =>
    .elif position (condition.rename change) (renameBlock change body) (fallback.rename change)

def renameBlock (change : String → String) : List Stmt → List Stmt
  | [] => []
  | first :: rest => first.rename change :: renameBlock change rest

end

/-! ## One declaration renamed -/

mutual

/-- A statement with one procedure declaration in it, or itself, replaced: the parameter `old` is
called `new`, in the list of parameters and in the body. No procedure declared in the body may be
called `old`. -/
inductive Stmt.Renamed (r : Renaming) : Stmt → Stmt → Prop
  | here {position name parameters body} : r.old ∈ parameters → r.old ∉ blockProcedures body →
      Stmt.Renamed r (.procedure position name parameters body)
        (.procedure position name (parameters.map r.apply) (renameBlock r.apply body))
  | procedure {position name parameters body body'} : BlockRenamed r body body' →
      Stmt.Renamed r (.procedure position name parameters body)
        (.procedure position name parameters body')
  | incase {position condition body body' fallback} : BlockRenamed r body body' →
      Stmt.Renamed r (.incase position condition body fallback)
        (.incase position condition body' fallback)
  | fallback {position condition body fallback fallback'} : Fallback.Renamed r fallback fallback' →
      Stmt.Renamed r (.incase position condition body fallback)
        (.incase position condition body fallback')
  | init {position init init' condition update body} : Stmt.Renamed r init init' →
      Stmt.Renamed r (.drift position init condition update body)
        (.drift position init' condition update body)
  | update {position init condition update update' body} : Stmt.Renamed r update update' →
      Stmt.Renamed r (.drift position init condition update body)
        (.drift position init condition update' body)
  | drift {position init condition update body body'} : BlockRenamed r body body' →
      Stmt.Renamed r (.drift position init condition update body)
        (.drift position init condition update body')
  | through {position name constant iterable body body'} : BlockRenamed r body body' →
      Stmt.Renamed r (.through position name constant iterable body)
        (.through position name constant iterable body')

inductive Fallback.Renamed (r : Renaming) : Fallback → Fallback → Prop
  | block {body body'} : BlockRenamed r body body' →
      Fallback.Renamed r (.block body) (.block body')
  | elif {position condition body body' fallback} : BlockRenamed r body body' →
      Fallback.Renamed r (.elif position condition body fallback)
        (.elif position condition body' fallback)
  | fallback {position condition body fallback fallback'} : Fallback.Renamed r fallback fallback' →
      Fallback.Renamed r (.elif position condition body fallback)
        (.elif position condition body fallback')

inductive BlockRenamed (r : Renaming) : List Stmt → List Stmt → Prop
  | first {first first' rest} : Stmt.Renamed r first first' →
      BlockRenamed r (first :: rest) (first' :: rest)
  | rest {first rest rest'} : BlockRenamed r rest rest' →
      BlockRenamed r (first :: rest) (first :: rest')

end

end Script
