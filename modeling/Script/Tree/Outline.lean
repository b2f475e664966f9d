import Script.Data
import Script.Tree

/-!
# Trees as plain data

The outline of a node is a record: the name of its kind, its parts in order, and its position.
A number that has no digits is shown by its text.
-/

namespace Script

/-- The record of a node. -/
def outlineNode (kind : String) (position : Position) (parts : List (String × Data)) : Data :=
  .record <| ("kind", .text kind) :: parts ++
    [("line", .integer position.line), ("col", .integer position.column)]

/-- A number in an outline. -/
def Number.outline (x : Number) : Data := if x.isFinite then .number x else .text x.literal

mutual

/-- The outline of an expression. -/
def Expr.outline : Expr → Data
  | .number p value => outlineNode "number" p [("value", value.outline)]
  | .string p value => outlineNode "string" p [("value", .text value)]
  | .boolean p value => outlineNode "boolean" p [("value", .boolean value)]
  | .null p => outlineNode "null" p []
  | .nan p => outlineNode "nan" p []
  | .identifier p name => outlineNode "identifier" p [("name", .text name)]
  | .array p elements => outlineNode "array" p [("elements", .list (outlineElements elements))]
  | .object p properties =>
    outlineNode "object" p [("properties", .list (outlineProperties properties))]
  | .binary p operator left right =>
    outlineNode "binary" p
      [("operator", .text operator.spelling), ("left", left.outline), ("right", right.outline)]
  | .unary p operator operand =>
    outlineNode "unary" p
      [("operator", .text operator.spelling), ("operand", operand.outline)]
  | .member p object property =>
    outlineNode "member" p [("object", object.outline), ("property", .text property)]
  | .computed p object key =>
    outlineNode "computed_member" p [("object", object.outline), ("key", key.outline)]
  | .call p callee arguments =>
    outlineNode "call" p
      [("callee", callee.outline), ("arguments", .list (outlineElements arguments))]
  | .foreign p kind => outlineNode kind p []

/-- The outlines of expressions. -/
def outlineElements : List Expr → List Data
  | [] => []
  | e :: rest => e.outline :: outlineElements rest

/-- The outlines of properties, each a key and a value. -/
def outlineProperties : List (String × Expr) → List Data
  | [] => []
  | (key, e) :: rest => .list [.text key, e.outline] :: outlineProperties rest

end

mutual

/-- The outline of a statement. -/
def Stmt.outline : Stmt → Data
  | .declare p name constant value =>
    outlineNode "var_decl" p
      [("name", .text name), ("is_constant", .boolean constant), ("value", value.outline)]
  | .assign p name value =>
    outlineNode "assign" p [("name", .text name), ("value", value.outline)]
  | .assignMember p object property value =>
    outlineNode "member_assign" p
      [("object", object.outline), ("property", .text property),
       ("is_computed", .boolean false), ("value", value.outline)]
  | .assignComputed p object key value =>
    outlineNode "member_assign" p
      [("object", object.outline), ("property", key.outline),
       ("is_computed", .boolean true), ("value", value.outline)]
  | .procedure p name parameters body =>
    outlineNode "procedure" p
      [("name", .text name), ("parameters", .list (parameters.map .text)),
       ("body", .list (outlineBlock body))]
  | .returns p value => outlineNode "return" p [("value", value.outline)]
  | .leave p => outlineNode "break" p []
  | .proceed p => outlineNode "continue" p []
  | .incase p condition body fallback =>
    outlineNode "incase" p
      [("condition", condition.outline), ("body", .list (outlineBlock body)),
       ("elif_branches", .list fallback.outlineBranches), ("else_body", fallback.outlineElse)]
  | .drift p init condition update body =>
    outlineNode "drift" p
      [("init", init.outline), ("condition", condition.outline), ("update", update.outline),
       ("body", .list (outlineBlock body))]
  | .through p name constant iterable body =>
    outlineNode "drift_through" p
      [("name", .text name), ("is_constant", .boolean constant),
       ("iterable", iterable.outline), ("body", .list (outlineBlock body))]
  | .expression value => value.outline

/-- The outlines of the further conditions of a fallback. -/
def Fallback.outlineBranches : Fallback → List Data
  | .nothing => []
  | .block _ => []
  | .elif p condition body fallback =>
    outlineNode "elif" p
      [("condition", condition.outline), ("body", .list (outlineBlock body))] ::
      fallback.outlineBranches

/-- The outline of the block that ends a fallback. -/
def Fallback.outlineElse : Fallback → Data
  | .nothing => .null
  | .block body => .list (outlineBlock body)
  | .elif _ _ _ fallback => fallback.outlineElse

/-- The outlines of statements. -/
def outlineBlock : List Stmt → List Data
  | [] => []
  | s :: rest => s.outline :: outlineBlock rest

end

/-- The outline of a program. -/
def Program.outline (program : Program) : Data :=
  outlineNode "program" program.position [("body", .list (outlineBlock program.body))]

end Script
