import Script.Fault
import Script.Number
import Script.Value.Display
import Script.Value.Equality

/-!
# What operators compute

Operators get the values of both operands. `+` joins texts if either operand is a text, `==`
and `!=` take all values, the logical operators take all values but an array with a truth value,
and the others take numbers only.
-/

namespace Script.Store

/-- The numbers that two operands must be. -/
def numbers (operator : BinaryOp) (left right : Value) : Except Fault (Number × Number) :=
  match left, right with
  | .number x, .number y => .ok (x, y)
  | _, _ => .error (.operandKinds operator left.kind right.kind)

/-- An operator from numbers to a number. -/
def arithmetic (operator : BinaryOp) (compute : Number → Number → Number) (left right : Value) :
    Except Fault Value := do
  let (x, y) ← numbers operator left right
  return .number (compute x y)

/-- A comparison of numbers. -/
def comparison (operator : BinaryOp) (compare : Number → Number → Bool) (left right : Value) :
    Except Fault Value :=
  match left, right with
  | .null, _ | _, .null => .error (.orderWithNull operator)
  | .number x, .number y => .ok (.boolean (compare x y))
  | _, _ => .error (.orderKinds left.kind right.kind)

/-- An operator on the truth of its operands. -/
def logical (combine : Bool → Bool → Bool) (left right : Value) : Except Fault Value :=
  match left, right with
  | .array _, .boolean _ => .error .arrayWithBoolean
  | .boolean _, .array _ => .error .booleanWithArray
  | _, _ => .ok (.boolean (combine left.isTruthy right.isTruthy))

/-- The sum of numbers, or the texts of two values in a row if one is a text. -/
def sum (store : Store) (left right : Value) : Except Fault Value :=
  match left, right with
  | .string _, _ | _, .string _ => .ok (.string (store.display left ++ store.display right))
  | _, _ => arithmetic .add .add left right

/-- What a binary operator gives. -/
def binary (store : Store) (operator : BinaryOp) (left right : Value) : Except Fault Value :=
  match operator with
  | .add => store.sum left right
  | .subtract => arithmetic operator .sub left right
  | .multiply => arithmetic operator .mul left right
  | .divide => arithmetic operator .div left right
  | .less => comparison operator Number.less left right
  | .greater => comparison operator (fun x y => y.less x) left right
  | .atMost => comparison operator Number.atMost left right
  | .atLeast => comparison operator (fun x y => y.atMost x) left right
  | .equal => .ok (.boolean (store.equal left right))
  | .notEqual => .ok (.boolean (!store.equal left right))
  | .and => logical (· && ·) left right
  | .or => logical (· || ·) left right
  | .bitAnd => arithmetic operator .bitAnd left right
  | .bitOr => arithmetic operator .bitOr left right
  | .other spelling => .error (.unknownBinary spelling)

/-- What an operator before its operand gives. -/
def unary (operator : UnaryOp) (operand : Value) : Except Fault Value :=
  match operator with
  | .not => .ok (.boolean !operand.isTruthy)
  | .negate =>
    match operand with
    | .number x => .ok (.number x.neg)
    | _ => .error (.negatedKind operand.kind)
  | .other spelling => .error (.unknownUnary spelling)

end Script.Store
