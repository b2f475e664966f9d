import Script.Eval
import Script.Parse.Statement

/-!
# Sessions

A session runs one program after another on one store. Names, arrays and objects stay from run
to run; the printed lines are those of the latest run. A run that fails keeps what it did before
the fault, and the session goes on.
-/

namespace Script

/-- Why a source text gives no output. -/
inductive Failure where
  | compile (fault : CompileFault)
  | run (fault : Fault)
deriving DecidableEq, Repr

/-- What is said about a failure. -/
def Failure.message : Failure → String
  | compile fault => fault.message
  | run fault => fault.message

/-- Calls nest far less deep than this unless they nest for ever. -/
def Limits.standard : Limits where
  depth := 500
  rounds := 1000000000000000

/-- The value of a program whose statements ended with a signal. -/
def programResult : Signal → Run Value
  | .normal value => return value
  | .returned _ => throw .strayReturn
  | .broke => throw .strayBreak
  | .continued => throw .strayContinue

/-- Runs a program: its printed lines replace those of an earlier one. -/
def Program.run (limits : Limits) (program : Program) : Run Value := do
  modify fun store => { store with output := #[] }
  programResult (← program.exec limits)

/-- The store between two runs, and the value of the last run that succeeded. -/
structure Session where
  store : Store := .initial
  last : Value := .null
deriving Repr

namespace Session

/-- A session in which nothing has run. -/
def start : Session := {}

/-- The printed lines of the latest run as one text. -/
def output (session : Session) : String := String.intercalate "\n" session.store.output.toList

/-- Runs a program. -/
def run (limits : Limits) (session : Session) (program : Program) :
    Except Fault String × Session :=
  match program.run limits session.store with
  | .ok value store =>
    let after : Session := ⟨store, value⟩
    (.ok after.output, after)
  | .error fault store => (.error fault, { session with store })

/-- Compiles and runs a source text. A text that is no program changes nothing. -/
def submit (limits : Limits) (session : Session) (source : String) :
    Except Failure String × Session :=
  match compile source with
  | .error fault => (.error (.compile fault), session)
  | .ok program =>
    match session.run limits program with
    | (.ok output, after) => (.ok output, after)
    | (.error fault, after) => (.error (.run fault), after)

/-- The names of the outermost scope with their bindings, by name. -/
def globals (session : Session) : List (String × Binding Value) :=
  match session.store.scopes[Store.globalScope]? with
  | some scope => scope.bindings.entries.mergeSort fun a b => decide (a.1 ≤ b.1)
  | none => []

end Session

/-- The output of a program in a new session. -/
def Program.output (limits : Limits) (program : Program) : Except Fault String :=
  (Session.start.run limits program).1

/-- The output of a source text in a new session. -/
def execute (limits : Limits) (source : String) : Except Failure String :=
  (Session.start.submit limits source).1

end Script
