import Script.Run

/-!
# Running programs

Expressions are evaluated and statements executed by recursion on the tree. What a call of a
function does is a parameter, `call`, of both; `invoke` supplies it by recursion on the number of
calls that may still be nested. Only a loop can go on for ever, so only loops count the rounds
they make.

A statement ends with a `Signal`. Blocks stop at the first signal that is not normal, loops
absorb `broke` and `continued`, and calls absorb `returned`.
-/

namespace Script

/-- How a statement ends. -/
inductive Signal where
  /-- The statement is complete and has a value. -/
  | normal (value : Value)
  /-- A value is on its way to the enclosing call. -/
  | returned (value : Value)
  /-- The enclosing loop is to end. -/
  | broke
  /-- The enclosing loop is to go on to its next round. -/
  | continued
deriving DecidableEq, Repr

/-- How deep calls may nest and how many rounds one loop may make. -/
structure Limits where
  depth : Nat
  rounds : Nat
deriving DecidableEq, Repr

/-- What calling a function with arguments does. -/
abbrev Call := Callable → List Value → Run Value

/-! ## Expressions -/

/-- The function that a value is, if it is one. -/
def callable (value : Value) : Run Callable := do
  match value with
  | .function id =>
    match (← get).functions[id]? with
    | some callable => return callable
    | none => throw (.notCallable .function)
  | other => throw (.notCallable other.kind)

mutual

/-- The value of an expression in a scope. -/
def Expr.eval (call : Call) (scope : ScopeId) : Expr → Run Value
  | .number _ value => return .number value
  | .string _ value => return .string value
  | .boolean _ value => return .boolean value
  | .null _ => return .null
  | .nan _ => return .number .nan
  | .identifier _ name => Run.lookup scope name
  | .array _ elements => do Run.newArray (← evalElements call scope elements)
  | .object _ properties => do Run.newObject (← evalProperties call scope properties)
  | .binary _ operator left right => do
    let x ← left.eval call scope
    let y ← right.eval call scope
    Run.lift ((← get).binary operator x y)
  | .unary _ operator operand => do
    let x ← operand.eval call scope
    Run.lift (Store.unary operator x)
  | .member _ object property => do
    let target ← object.eval call scope
    Run.readMember target property
  | .computed _ object key => do
    let target ← object.eval call scope
    let keyValue ← key.eval call scope
    Run.readComputed target ((← get).display keyValue)
  | .call _ callee arguments => do
    let function ← callable (← callee.eval call scope)
    let values ← evalElements call scope arguments
    call function values
  | .foreign position kind => throw (.noRule kind position)

/-- The values of expressions, from left to right. -/
def evalElements (call : Call) (scope : ScopeId) : List Expr → Run (List Value)
  | [] => return []
  | e :: rest => do
    let value ← e.eval call scope
    return value :: (← evalElements call scope rest)

/-- The values of properties, from left to right. -/
def evalProperties (call : Call) (scope : ScopeId) :
    List (String × Expr) → Run (List (String × Value))
  | [] => return []
  | (key, e) :: rest => do
    let value ← e.eval call scope
    return (key, value) :: (← evalProperties call scope rest)

end

/-! ## Loops -/

/-- A loop that runs its body and then its update as long as its condition holds. -/
def countingLoop (condition : Run Bool) (body : Run Signal) (update : Run Unit) :
    (rounds : Nat) → Run Signal
  | 0 => throw .loopRounds
  | rounds + 1 => do
    if ← condition then
      match ← body with
      | .broke => return .normal .zero
      | .returned value => return .returned value
      | .normal _ | .continued =>
        update
        countingLoop condition body update rounds
    else return .normal .zero

/-- A loop that runs its body on the elements of an array from an index on. Each round reads the
array as it then is. -/
def throughLoop (array : ArrayId) (body : Value → Run Signal) :
    (rounds index : Nat) → Run Signal
  | 0, _ => throw .loopRounds
  | rounds + 1, index => do
    match ((← get).elements array)[index]? with
    | none => return .normal .zero
    | some element =>
      match ← body element with
      | .broke => return .normal .zero
      | .returned value => return .returned value
      | .normal _ | .continued => throughLoop array body rounds (index + 1)

/-! ## Statements -/

/-- The truth value that a condition must have. -/
def truth (clause : Clause) (value : Value) : Run Bool :=
  match value with
  | .boolean b => return b
  | other => throw (.conditionKind clause other.kind)

mutual

/-- Executes a statement in a scope. -/
def Stmt.exec (call : Call) (rounds : Nat) (scope : ScopeId) : Stmt → Run Signal
  | .declare _ name constant value => do
    let x ← value.eval call scope
    Run.define scope name x constant
    return .normal x
  | .assign _ name value => do
    let x ← value.eval call scope
    Run.assign scope name x
    return .normal x
  | .assignMember _ object property value => do
    let target ← object.eval call scope
    let x ← value.eval call scope
    Run.writeMember target (return property) x
    return .normal x
  | .assignComputed _ object key value => do
    let target ← object.eval call scope
    let x ← value.eval call scope
    Run.writeMember target (do
      let keyValue ← key.eval call scope
      return (← get).display keyValue) x
    return .normal x
  | .procedure _ name parameters body => do
    let function ← Run.newFunction (.procedure ⟨name, parameters, body, scope⟩)
    Run.define scope name function true
    return .normal function
  | .returns _ value => do return .returned (← value.eval call scope)
  | .leave _ => return .broke
  | .proceed _ => return .continued
  | .incase _ condition body fallback => do
    if ← truth .incase (← condition.eval call scope) then execBlock call rounds scope .zero body
    else fallback.exec call rounds scope
  | .drift _ init condition update body => do
    let inner ← Run.openScope scope
    let _ ← init.exec call rounds inner
    countingLoop (do return (← condition.eval call inner).isTruthy)
      (execBlock call rounds inner .zero body) (do let _ ← update.exec call rounds inner) rounds
  | .through _ name constant iterable body => do
    match ← iterable.eval call scope with
    | .array id =>
      throughLoop id (fun element => do
        let inner ← Run.openScope scope
        Run.define inner name element constant
        execBlock call rounds inner .zero body) rounds 0
    | other => throw (.notIterable other.kind)
  | .expression value => do return .normal (← value.eval call scope)

/-- Executes what a conditional falls back on. -/
def Fallback.exec (call : Call) (rounds : Nat) (scope : ScopeId) : Fallback → Run Signal
  | .nothing => return .normal .zero
  | .block body => execBlock call rounds scope .zero body
  | .elif _ condition body fallback => do
    if ← truth .elif (← condition.eval call scope) then execBlock call rounds scope .zero body
    else fallback.exec call rounds scope

/-- Executes statements in order, up to the first signal that is not normal. The value is that of
the last statement, or the given one if there is none. -/
def execBlock (call : Call) (rounds : Nat) (scope : ScopeId) (last : Value) :
    List Stmt → Run Signal
  | [] => return .normal last
  | first :: rest => do
    match ← first.exec call rounds scope with
    | .normal value => execBlock call rounds scope value rest
    | signal => return signal

end

/-! ## Calls -/

/-- Binds parameters to arguments in a scope. -/
def bindParameters (scope : ScopeId) : List (String × Value) → Run Unit
  | [] => return
  | (name, value) :: rest => do
    Run.define scope name value false
    bindParameters scope rest

/-- The value of a call whose body ended with a signal. -/
def callResult : Signal → Run Value
  | .normal value => return value
  | .returned value => return value
  | .broke => throw .strayBreak
  | .continued => throw .strayContinue

/-- Calls a function. A procedure runs in a new scope in the one it was declared in, and its
own calls may nest one less deep. -/
def invoke (rounds : Nat) : (depth : Nat) → Call
  | depth, function, arguments =>
    match function with
    | .builtin _ action => Run.builtin action arguments
    | .procedure procedure =>
      if arguments.length ≠ procedure.parameters.length then
        throw (.argumentCount procedure.parameters.length arguments.length)
      else
        match depth with
        | 0 => throw .callDepth
        | depth + 1 => do
          let frame ← Run.openScope procedure.scope
          bindParameters frame (procedure.parameters.zip arguments)
          callResult (← execBlock (invoke rounds depth) rounds frame .zero procedure.body)

/-- Executes the statements of a program in the outermost scope. -/
def Program.exec (limits : Limits) (program : Program) : Run Signal :=
  execBlock (invoke limits.rounds limits.depth) limits.rounds Store.globalScope .zero program.body

end Script
