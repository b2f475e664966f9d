import Script.Number.Layout
import Script.Text.Quoted

/-!
# Plain data

The shape in which trees are shown: nested records and lists of texts, numbers, integers and
truth values. `Data.render` writes data over several lines, two blanks for each level.
-/

namespace Script

/-- Plain data. The fields of a record are in order. -/
inductive Data where
  | null
  | boolean (value : Bool)
  | integer (value : Int)
  | number (value : Number)
  | text (value : String)
  | list (items : List Data)
  | record (fields : List (String × Data))
deriving BEq, Inhabited, Repr

namespace Data

/-- A line end and the blanks of a level. -/
def newline (level : Nat) : String := String.ofList ('\n' :: List.replicate (2 * level) ' ')

/-- Items between brackets, each on a line of its own. -/
def bracketed (opening closing : String) (level : Nat) (items : List String) : String :=
  if items.isEmpty then opening ++ closing
  else
    opening ++ newline (level + 1) ++ String.intercalate ("," ++ newline (level + 1)) items ++
      newline level ++ closing

mutual

/-- The text of data that stands at a level. -/
def renderAt (level : Nat) : Data → String
  | null => "null"
  | boolean true => "true"
  | boolean false => "false"
  | integer n => toString n
  | number x => x.literal
  | text s => Text.encoded s
  | list items => bracketed "[" "]" level (renderItems (level + 1) items)
  | record fields => bracketed "\x7b" "\x7d" level (renderFields (level + 1) fields)

/-- The texts of the items of a list. -/
def renderItems (level : Nat) : List Data → List String
  | [] => []
  | item :: rest => renderAt level item :: renderItems level rest

/-- The texts of the fields of a record. -/
def renderFields (level : Nat) : List (String × Data) → List String
  | [] => []
  | (name, item) :: rest =>
    (Text.encoded name ++ ": " ++ renderAt level item) :: renderFields level rest

end

/-- The text of data. -/
def render (data : Data) : String := renderAt 0 data

end Data

end Script
