import Script.Number.Numeral
import Script.Value.Operation

/-!
# Steps on the store

`Run` is a computation on the store that may end in a fault; the store then is as the fault found
it. The steps below are what evaluation is made of: names, new arrays and objects, access to
members, and the built-in functions.

A key names the element of an array whose number it is the canonical decimal numeral of: digits
only, with no zero before other digits.
-/

namespace Script

/-! ## Keys as indices -/

namespace Key

/-- Whether a key consists of digits. -/
def isDigits (key : List Char) : Bool := !key.isEmpty && key.all isDigit

/-- Whether digits are a canonical numeral. -/
def isCanonical : List Char → Bool
  | '0' :: _ :: _ => false
  | _ => true

/-- The index that a key names, if any. A key of too many digits is a fault. -/
def index? (key : String) : Except Fault (Option Nat) :=
  let chars := key.toList
  if isDigits chars then
    if Fault.maxKeyDigits < chars.length then .error (.longKey chars.length)
    else if isCanonical chars then .ok (some (Numeral.natural chars))
    else .ok none
  else .ok none

/-- The most elements by which a write can make an array longer. -/
def maxGrowth : Nat := 0x7FFFFFFFFFFFFFFF

end Key

/-! ## Computations -/

/-- A computation on the store. -/
abbrev Run := EStateM Fault Store

namespace Run

/-- The result of a computation that does not change the store. -/
def lift {α : Type} (result : Except Fault α) : Run α :=
  match result with
  | .ok value => pure value
  | .error fault => throw fault

/-! ## Names -/

/-- The value of a name in a scope. -/
def lookup (scope : ScopeId) (name : String) : Run Value := do
  match (← get).scopes.resolve scope name with
  | .ok binding => return binding.value
  | .error fault => throw (.name fault)

/-- Binds a name in a scope. -/
def define (scope : ScopeId) (name : String) (value : Value) (constant : Bool) : Run Unit :=
  modify fun store => { store with scopes := store.scopes.define scope name value constant }

/-- Gives a name another value. -/
def assign (scope : ScopeId) (name : String) (value : Value) : Run Unit := do
  match (← get).scopes.assignee scope name with
  | .ok owner => define owner name value false
  | .error fault => throw (.name fault)

/-- Opens a scope in another one. -/
def openScope (parent : ScopeId) : Run ScopeId :=
  modifyGet fun store =>
    (store.scopes.size, { store with scopes := store.scopes.child parent })

/-! ## New arrays, objects and functions -/

/-- A new array. -/
def newArray (elements : List Value) : Run Value :=
  modifyGet fun store =>
    (.array store.arrays.size, { store with arrays := store.arrays.push elements.toArray })

/-- A new object. -/
def newObject (properties : List (String × Value)) : Run Value :=
  modifyGet fun store =>
    (.object store.objects.size, { store with objects := store.objects.push (.ofList properties) })

/-- A new function, which is equal to no other. -/
def newFunction (callable : Callable) : Run Value :=
  modifyGet fun store =>
    (.function store.functions.size, { store with functions := store.functions.push callable })

/-! ## Members -/

/-- Changes the elements of an array. -/
def updateElements (array : ArrayId) (change : Array Value → Array Value) : Run Unit :=
  modify fun store => { store with arrays := store.arrays.modify array change }

/-- The length of an array as a value. -/
def lengthOf (array : ArrayId) : Run Value := do
  return .number (.ofNat ((← get).elements array).size)

/-- The element of an array that a key names, null if there is none. -/
def readElement (array : ArrayId) (key : String) : Run Value := do
  let index ← lift (Key.index? key)
  let elements := (← get).elements array
  return (index.bind (elements[·]?)).getD .null

/-- The property of an object with a key, null if there is none. -/
def readProperty (object : ObjectId) (key : String) : Run Value := do
  return (((← get).properties object).get? key).getD .null

/-- The member of a value with a fixed name. Arrays have a length and methods besides their
elements. -/
def readMember (target : Value) (property : String) : Run Value := do
  match target with
  | .array id =>
    if property = "length" then lengthOf id
    else
      match Method.ofName? property with
      | some method => newFunction (.builtin method.name (.method method id))
      | none => readElement id property
  | .object id => readProperty id property
  | other => throw (.memberOf property other.kind)

/-- The member of a value with a computed key. -/
def readComputed (target : Value) (key : String) : Run Value := do
  match target with
  | .array id => readElement id key
  | .object id => readProperty id key
  | other => throw (.computedOf other.kind)

/-- Elements with one written, and null in between if the array was too short for it. -/
def writeAt (elements : Array Value) (index : Nat) (value : Value) : Array Value :=
  if index < elements.size then elements.setIfInBounds index value
  else (elements ++ Array.replicate (index - elements.size) Value.null).push value

/-- Writes the element of an array that a key names. -/
def writeElement (array : ArrayId) (key : String) (value : Value) : Run Unit := do
  match ← lift (Key.index? key) with
  | none => throw (.invalidIndex key)
  | some index =>
    if Key.maxGrowth < index + 1 - ((← get).elements array).size then throw .hugeIndex
    updateElements array (writeAt · index value)

/-- Writes a property of an object. -/
def writeProperty (object : ObjectId) (key : String) (value : Value) : Run Unit :=
  modify fun store => { store with objects := store.objects.modify object (·.insert key value) }

/-- Writes the member of an array or an object that a key, which is computed only for these,
names. -/
def writeMember (target : Value) (key : Run String) (value : Value) : Run Unit := do
  match target with
  | .array id => writeElement id (← key) value
  | .object id => writeProperty id (← key) value
  | other => throw (.writeTo other.kind)

/-! ## Built-in functions -/

/-- Prints a value on a line of its own. -/
def print (value : Value) : Run Unit :=
  modify fun store => { store with output := store.output.push (store.display value) }

/-- Runs a built-in function on its arguments. -/
def builtin (action : Builtin) (arguments : List Value) : Run Value := do
  match action, arguments with
  | .console, [value] =>
    print value
    return .null
  | .method .push array, [value] =>
    updateElements array (·.push value)
    lengthOf array
  | .method .unshift array, [value] =>
    updateElements array (#[value] ++ ·)
    lengthOf array
  | .method .pop array, [] =>
    let last := ((← get).elements array).back?
    updateElements array (·.pop)
    return last.getD .null
  | .method .shift array, [] =>
    let first := ((← get).elements array)[0]?
    updateElements array fun elements => elements.extract 1 elements.size
    return first.getD .null
  | _, _ => throw (.argumentCount action.arity arguments.length)

end Run

end Script
