import Script.Value

/-!
# Faults

Why running a program stops. Faults of the program itself and limits of the machine it runs on
are told apart by `Fault.category`, since they are reported in different ways.
-/

namespace Script

/-- The two places where a statement's condition must be a truth value. -/
inductive Clause where
  | incase
  | elif
deriving DecidableEq, Repr

/-- Why running a program stops. -/
inductive Fault where
  | name (fault : NameFault)
  | operandKinds (operator : BinaryOp) (left right : ValueKind)
  | orderWithNull (operator : BinaryOp)
  | orderKinds (left right : ValueKind)
  | arrayWithBoolean
  | booleanWithArray
  | unknownBinary (spelling : String)
  | unknownUnary (spelling : String)
  | negatedKind (kind : ValueKind)
  | memberOf (property : String) (kind : ValueKind)
  | computedOf (kind : ValueKind)
  | writeTo (kind : ValueKind)
  | invalidIndex (key : String)
  | notCallable (kind : ValueKind)
  | argumentCount (expected given : Nat)
  | conditionKind (clause : Clause) (kind : ValueKind)
  | notIterable (kind : ValueKind)
  | strayReturn
  | strayBreak
  | strayContinue
  /-- A key of too many digits to be read as an index. -/
  | longKey (digits : Nat)
  /-- An index that no array can be made long enough for. -/
  | hugeIndex
  /-- A node of a kind that has no value. -/
  | noRule (kind : String) (position : Position)
  /-- More nested calls than the limit. -/
  | callDepth
  /-- More rounds of a loop than the limit. -/
  | loopRounds
deriving DecidableEq, Repr

namespace Fault

/-- How a fault is reported: as one of the program, as a limit with a label, or as too deep
recursion. -/
inductive Category where
  | program
  | limit (label : String)
  | recursion
deriving DecidableEq, Repr

/-- The category of a fault. -/
def category : Fault → Category
  | longKey _ => .limit "ValueError"
  | hugeIndex => .limit "OverflowError"
  | noRule _ _ => .limit "NotImplementedError"
  | callDepth => .recursion
  | loopRounds => .limit "TimeoutError"
  | _ => .program

/-- The most digits of a key that is read as an index. -/
def maxKeyDigits : Nat := 4300

/-- What is said about a fault. -/
def message : Fault → String
  | name fault => fault.message
  | operandKinds operator left right =>
    s!"Cannot perform operation '{operator.spelling}' on incompatible types " ++
      s!"{left.name} and {right.name}"
  | orderWithNull operator => s!"Cannot compare null using {operator.spelling} operator"
  | orderKinds left right =>
    s!"Comparison operators require numbers, got {left.name} and {right.name}"
  | arrayWithBoolean => "Cannot compare array to boolean"
  | booleanWithArray => "Cannot compare boolean to array"
  | unknownBinary spelling => s!"Unknown operator: {spelling}"
  | unknownUnary spelling => s!"Unknown unary operator: {spelling}"
  | negatedKind kind => s!"Unary '-' requires a number, got {kind.name}"
  | memberOf property kind => s!"Cannot access property {property} on non-object ({kind.name})"
  | computedOf kind => s!"Cannot access computed property on non-object ({kind.name})"
  | writeTo kind => s!"Cannot assign property to non-object ({kind.name})"
  | invalidIndex key => s!"Invalid array index: {key}"
  | notCallable kind => s!"Cannot call non-function value ({kind.name})"
  | argumentCount expected given => s!"Expected {expected} arguments, got {given}"
  | conditionKind .incase kind =>
    s!"Incase statement condition must be a boolean, got {kind.name}"
  | conditionKind .elif kind => s!"Elif statement condition must be a boolean, got {kind.name}"
  | notIterable kind =>
    s!"Can only iterate through arrays in drift-through loop, got {kind.name}"
  | strayReturn => "'returns' used outside of a procedure"
  | strayBreak => "'break' used outside of a loop"
  | strayContinue => "'continue' used outside of a loop"
  | longKey digits =>
    s!"Exceeds the limit ({maxKeyDigits} digits) for integer string conversion: " ++
      s!"value has {digits} digits; use sys.set_int_max_str_digits() to increase the limit"
  | hugeIndex => "cannot fit 'int' into an index-sized integer"
  | noRule kind position =>
    s!"No evaluator for node kind '{kind}' (line {position.line}, col {position.column})"
  | callDepth => "Maximum recursion depth exceeded"
  | loopRounds => "Too many rounds in a loop"

end Fault

end Script
