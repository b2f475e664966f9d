import Script.Number
import Script.Scope
import Script.Tree

/-!
# Values and the store

Numbers, texts, truth values and null are values of their own. Arrays, objects and functions live
in the store and a value holds their number, so that all holders of one see every change to it.
The store also has the scopes and the lines printed so far.
-/

namespace Script

/-- The number of an array. -/
abbrev ArrayId := Nat

/-- The number of an object. -/
abbrev ObjectId := Nat

/-- The number of a function. -/
abbrev FunctionId := Nat

/-- A value of the language. -/
inductive Value where
  | number (value : Number)
  | string (value : String)
  | boolean (value : Bool)
  | null
  | function (id : FunctionId)
  | array (id : ArrayId)
  | object (id : ObjectId)
deriving DecidableEq, Repr, Inhabited

/-- The kinds of values that messages speak of. -/
inductive ValueKind where
  | number | string | boolean | null | function | array | object
deriving DecidableEq, Repr

/-- The name of a kind of values. -/
def ValueKind.name : ValueKind → String
  | number => "number"
  | string => "string"
  | boolean => "boolean"
  | null => "null"
  | function => "function"
  | array => "array"
  | object => "object"

namespace Value

def kind : Value → ValueKind
  | number _ => .number
  | string _ => .string
  | boolean _ => .boolean
  | null => .null
  | function _ => .function
  | array _ => .array
  | object _ => .object

/-- The value of a statement that has none of its own. -/
def zero : Value := .number .zero

/-- False are `false`, null, the zeros and NaN; all else is true, the empty text too. -/
def isTruthy : Value → Bool
  | boolean value => value
  | number value => value.isTruthy
  | null => false
  | _ => true

end Value

/-! ## Functions -/

/-- A procedure with the scope it was declared in. -/
structure Procedure where
  name : String
  parameters : List String
  body : List Stmt
  scope : ScopeId
deriving Repr

/-- The methods of arrays. -/
inductive Method where
  | push | pop | shift | unshift
deriving DecidableEq, Repr

namespace Method

def all : List Method := [.push, .pop, .shift, .unshift]

def name : Method → String
  | push => "push"
  | pop => "pop"
  | shift => "shift"
  | unshift => "unshift"

/-- The number of arguments a method takes. -/
def arity : Method → Nat
  | push => 1
  | pop => 0
  | shift => 0
  | unshift => 1

/-- The method with a name. -/
def ofName? (name : String) : Option Method := all.find? (·.name = name)

end Method

/-- What a built-in function does: print a line, or run a method of one array. -/
inductive Builtin where
  | console
  | method (method : Method) (array : ArrayId)
deriving DecidableEq, Repr

/-- The number of arguments a built-in function takes. -/
def Builtin.arity : Builtin → Nat
  | console => 1
  | method m _ => m.arity

/-- What can be called. -/
inductive Callable where
  | procedure (procedure : Procedure)
  | builtin (name : String) (action : Builtin)
deriving Repr

/-! ## The store -/

/-- Everything that running a program can change. -/
structure Store where
  scopes : Scopes Value := .root
  arrays : Array (Array Value) := #[]
  objects : Array (Table Value) := #[]
  functions : Array Callable := #[]
  output : Array String := #[]
deriving Repr

namespace Store

/-- The elements of an array. -/
def elements (store : Store) (id : ArrayId) : Array Value := (store.arrays[id]?).getD #[]

/-- The properties of an object. -/
def properties (store : Store) (id : ObjectId) : Table Value :=
  (store.objects[id]?).getD .empty

/-- The outermost scope. -/
def globalScope : ScopeId := 0

/-- The store before anything has run: the constant `System` leads to the printing function. -/
def initial : Store where
  scopes := Scopes.root.define globalScope "System" (.object 1) true
  objects := #[.ofList [("console", .function 0)], .ofList [("out", .object 0)]]
  functions := #[.builtin "console" .console]

end Store

end Script
