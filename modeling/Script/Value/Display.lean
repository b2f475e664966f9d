import Script.Number.Layout
import Script.Value

/-!
# The text of a value

Arrays are shown by their elements with commas between them, null elements as nothing. While an
array is shown it is *open*, and an open array is shown as nothing. All parts of a value share the
list of open arrays: an array is put on it before its elements are shown and taken off it behind
them. Open arrays are pairwise different, so the number of arrays bounds the depth and there always
is an answer.
-/

namespace Script.Store

/-- The text of a function. -/
def functionText (store : Store) (id : FunctionId) : String :=
  match store.functions[id]? with
  | some (.procedure procedure) => s!"<procedure {procedure.name}>"
  | some (.builtin name _) => s!"<builtin {name}>"
  | none => ""

/-- The text of a value that is no array. -/
def plainText (store : Store) : Value → String
  | .number value => value.display
  | .string value => value
  | .boolean true => "true"
  | .boolean false => "false"
  | .null => "null"
  | .function id => store.functionText id
  | .array _ => ""
  | .object _ => "[object Object]"

/-- Shows a value while some arrays are open. There is no answer if arrays would nest `depth`
deep. -/
def displayWithin (store : Store) : (depth : Nat) → Value → StateT (List ArrayId) Option String
  | 0, _ => failure
  | depth + 1, value =>
    match value with
    | .array id => do
      if (← get).contains id then return ""
      modify (id :: ·)
      let texts ← (store.elements id).toList.mapM fun element =>
        if element = .null then return "" else store.displayWithin depth element
      modify (·.erase id)
      return String.intercalate "," texts
    | other => return store.plainText other

/-- The text of a value. -/
def display (store : Store) (value : Value) : String :=
  ((store.displayWithin (store.arrays.size + 1) value).run' []).getD ""

end Script.Store
