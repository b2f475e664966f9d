import Script.Fault

/-!
# What a text is to blame for

Most faults depend on the values at hand. Some are decided by the text alone: a node or an operator
without a rule, and a `break`, `continue` or `returns` that no loop or call is there to take.

* `Stmt.exits`: how a statement may end other than normally. A loop takes breaks and continues, a
  procedure takes everything, since declaring it runs nothing.
* `Stmt.blame`: the faults that a statement, or a procedure declared in it, is to blame for.
-/

namespace Script

/-! ## Exits -/

/-- A way to leave a statement before it is complete. -/
inductive Exit where
  | returns | leave | proceed
deriving DecidableEq, Repr

namespace Exit

/-- The fault of an exit that nothing takes. -/
def stray : Exit → Fault
  | returns => .strayReturn
  | leave => .strayBreak
  | proceed => .strayContinue

/-- What of the exits of its body leaves a loop. -/
def ofLoop (exits : List Exit) : List Exit := exits.filter (· = returns)

/-- What of the exits of its body no call takes. -/
def ofCall (exits : List Exit) : List Exit := exits.filter (· ≠ returns)

/-- Only a return leaves a loop. -/
@[simp]
theorem mem_ofLoop {exits : List Exit} {exit : Exit} :
    exit ∈ ofLoop exits ↔ exit ∈ exits ∧ exit = returns := by
  simp [ofLoop]

@[simp]
theorem mem_ofCall {exits : List Exit} {exit : Exit} :
    exit ∈ ofCall exits ↔ exit ∈ exits ∧ exit ≠ returns := by
  simp [ofCall]

end Exit

mutual

/-- How a statement may end other than normally. -/
def Stmt.exits : Stmt → List Exit
  | .returns _ _ => [.returns]
  | .leave _ => [.leave]
  | .proceed _ => [.proceed]
  | .incase _ _ body fallback => blockExits body ++ fallback.exits
  | .drift _ _ _ _ body => Exit.ofLoop (blockExits body)
  | .through _ _ _ _ body => Exit.ofLoop (blockExits body)
  | _ => []

/-- How a fallback may end other than normally. -/
def Fallback.exits : Fallback → List Exit
  | .nothing => []
  | .block body => blockExits body
  | .elif _ _ body fallback => blockExits body ++ fallback.exits

/-- How a block may end other than normally. -/
def blockExits : List Stmt → List Exit
  | [] => []
  | first :: rest => first.exits ++ blockExits rest

end

/-! ## Blame -/

/-- The fault of an operator without a rule. -/
def BinaryOp.blame : BinaryOp → List Fault
  | .other spelling => [.unknownBinary spelling]
  | _ => []

/-- The fault of an operator without a rule. -/
def UnaryOp.blame : UnaryOp → List Fault
  | .other spelling => [.unknownUnary spelling]
  | _ => []

mutual

/-- The faults that an expression is to blame for. -/
def Expr.blame : Expr → List Fault
  | .array _ elements => elementBlame elements
  | .object _ properties => propertyBlame properties
  | .binary _ operator left right => operator.blame ++ (left.blame ++ right.blame)
  | .unary _ operator operand => operator.blame ++ operand.blame
  | .member _ object _ => object.blame
  | .computed _ object key => object.blame ++ key.blame
  | .call _ callee arguments => callee.blame ++ elementBlame arguments
  | .foreign position kind => [.noRule kind position]
  | _ => []

/-- The faults that expressions are to blame for. -/
def elementBlame : List Expr → List Fault
  | [] => []
  | e :: rest => e.blame ++ elementBlame rest

/-- The faults that the values of properties are to blame for. -/
def propertyBlame : List (String × Expr) → List Fault
  | [] => []
  | (_, e) :: rest => e.blame ++ propertyBlame rest

end

mutual

/-- The faults that a statement is to blame for, as soon as it or a procedure declared in it
runs. What leaves the statement is not among them, since a loop around it may take it. -/
def Stmt.blame : Stmt → List Fault
  | .declare _ _ _ value => value.blame
  | .assign _ _ value => value.blame
  | .assignMember _ object _ value => object.blame ++ value.blame
  | .assignComputed _ object key value => object.blame ++ (key.blame ++ value.blame)
  | .procedure _ _ _ body => blockBlame body ++ (Exit.ofCall (blockExits body)).map Exit.stray
  | .returns _ value => value.blame
  | .leave _ => []
  | .proceed _ => []
  | .incase _ condition body fallback => condition.blame ++ (blockBlame body ++ fallback.blame)
  | .drift _ init condition update body =>
    init.blame ++ (condition.blame ++ (update.blame ++ blockBlame body))
  | .through _ _ _ iterable body => iterable.blame ++ blockBlame body
  | .expression value => value.blame

/-- The faults that a fallback is to blame for. -/
def Fallback.blame : Fallback → List Fault
  | .nothing => []
  | .block body => blockBlame body
  | .elif _ condition body fallback => condition.blame ++ (blockBlame body ++ fallback.blame)

/-- The faults that a block is to blame for. -/
def blockBlame : List Stmt → List Fault
  | [] => []
  | first :: rest => first.blame ++ blockBlame rest

end

/-- The faults that a procedure is to blame for: no call takes a break or a continue. -/
def Procedure.blame (procedure : Procedure) : List Fault :=
  blockBlame procedure.body ++ (Exit.ofCall (blockExits procedure.body)).map Exit.stray

/-- The faults that a program is to blame for: nothing takes what leaves its statements. -/
def Program.blame (program : Program) : List Fault :=
  blockBlame program.body ++ (blockExits program.body).map Exit.stray

/-- Whether a fault is a signal that nothing took. -/
def Fault.isStray : Fault → Bool
  | .strayReturn | .strayBreak | .strayContinue => true
  | _ => false

/-- Whether a fault comes of values, however the text is written. No value that is a function
fails to be one. -/
def Fault.isOrdinary : Fault → Bool
  | .unknownBinary _ | .unknownUnary _ | .noRule _ _ | .strayReturn | .strayBreak
  | .strayContinue | .notCallable .function => false
  | _ => true

end Script
