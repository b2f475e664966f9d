import Script.Token

/-!
# Reading a token list

A parser reads tokens through a cursor that moves forward one token at a time and never past
an end of input. A fault leaves the cursor where it was found. Parsers that may decline give
an option, and `attempt` puts the cursor back when they do.

Every loop and every nesting takes at least one token, so the number of tokens bounds both:
`budget` is the bound that loops and nested parsers count down from.
-/

namespace Script

/-- Why a token list is no program. -/
inductive SyntaxFault where
  /-- A demand that the token found does not meet. -/
  | expected (demand : String) (found : Token)
  /-- A token that no expression starts with. -/
  | unexpected (found : Token)
  /-- An assignment, on a line, to something that is neither a name nor a member. -/
  | invalidTarget (line : Int)
  | duplicateParameter (name procedure : String) (line : Int)
  /-- The bound on loops was too small; a full `budget` never is. -/
  | outOfBudget (line : Int)
deriving DecidableEq, Repr

namespace SyntaxFault

/-- The line a fault is reported on. -/
def line : SyntaxFault → Int
  | expected _ found => found.position.line
  | unexpected found => found.position.line
  | invalidTarget line => line
  | duplicateParameter _ _ line => line
  | outOfBudget line => line

/-- What is said about a fault. -/
def message : SyntaxFault → String
  | expected demand found => s!"{demand} at line {found.position.line}, got {found.text}"
  | unexpected found => s!"Unexpected token: {found.text} at line {found.position.line}"
  | invalidTarget line => s!"Invalid assignment target at line {line}"
  | duplicateParameter name procedure line =>
    s!"Duplicate parameter name '{name}' in procedure '{procedure}' at line {line}"
  | outOfBudget line => s!"Program too long at line {line}"

end SyntaxFault

/-- A token list that ends with an end of input. -/
structure TokenList where
  tokens : Array Token
  /-- The end of input, which also stands for everything behind it. -/
  final : Token
  ended : final.kind = .endOfInput
deriving DecidableEq, Repr

namespace TokenList

/-- A token list as it is, if it ends with an end of input; else with one added at the position
of its last token, or at the start of the text if there is none. -/
def ofList (tokens : List Token) : TokenList :=
  match tokens.getLast? with
  | some last =>
    if ended : last.kind = .endOfInput then ⟨tokens.toArray, last, ended⟩
    else ⟨(tokens ++ [Token.endAt last.position]).toArray, .endAt last.position, rfl⟩
  | none => ⟨#[.endAt ⟨1, 1⟩], .endAt ⟨1, 1⟩, rfl⟩

/-- The token at an index, the end of input behind the list. -/
def token (list : TokenList) (index : Nat) : Token := (list.tokens[index]?).getD list.final

/-- The index at which a cursor stands; a negative cursor counts back from the end of the list. -/
def index? (list : TokenList) (cursor : Int) : Option Nat :=
  if 0 ≤ cursor then some cursor.toNat else Offset.index? cursor list.tokens.size

/-- The token at a cursor. -/
def peek? (list : TokenList) (cursor : Int) : Option Token := (list.index? cursor).map list.token

end TokenList

/-- A parser: reads a token list from a cursor and gives a result or a fault, and a cursor. -/
abbrev Parse := ReaderT TokenList (EStateM SyntaxFault Nat)

namespace Parse

/-! ## The cursor -/

/-- The next token. -/
def current : Parse Token := do return (← read).token (← get)

/-- The kind of the next token. -/
def currentKind : Parse Kind := do return (← current).kind

/-- Whether the input ends here. -/
def atEnd : Parse Bool := do return decide ((← currentKind) = .endOfInput)

/-- Takes the next token; the end of input stays. -/
def advance : Parse Token := do
  let token ← current
  unless token.kind = .endOfInput do modify (· + 1)
  return token

/-- Whether the next token has one of some kinds. -/
def check (kinds : List Kind) : Parse Bool := do return kinds.contains (← currentKind)

/-- Takes the next token if it has one of some kinds. -/
def acceptAny (kinds : List Kind) : Parse (Option Token) := do
  if ← check kinds then return some (← advance) else return none

/-- Takes the next token if it has a kind. -/
def accept (kind : Kind) : Parse (Option Token) := acceptAny [kind]

/-- Takes the next token, which must have a kind. -/
def expect (kind : Kind) (demand : String) : Parse Token := do
  let token ← current
  if token.kind = kind then advance else throw (.expected demand token)

/-- Runs a parser that may decline, and puts the cursor back if it does. -/
def attempt {α : Type} (production : Parse (Option α)) : Parse (Option α) := do
  let start ← get
  match ← production with
  | some result => return some result
  | none =>
    set start
    return none

/-! ## Loops -/

/-- A bound on the rounds of a loop and on the depth of nesting. -/
def budget : Parse Nat := do return (← read).tokens.size + 1

/-- Reports that a bound was too small. -/
def outOfBudget {α : Type} : Parse α := do throw (.outOfBudget (← current).position.line)

/-- Items with commas between them, at least one. -/
def commaSeparated {α : Type} (item : Parse α) : (rounds : Nat) → Parse (List α)
  | 0 => outOfBudget
  | rounds + 1 => do
    let first ← item
    match ← accept (.symbol .comma) with
    | some _ => return first :: (← commaSeparated item rounds)
    | none => return [first]

/-- Items with commas between them, perhaps none, up to a closing symbol, which is taken. -/
def commaList {α : Type} (item : Parse α) (closing : Symbol) (demand : String) :
    Parse (List α) := do
  let items ← if ← check [.symbol closing] then pure [] else commaSeparated item (← budget)
  let _ ← expect (.symbol closing) demand
  return items

/-! ## Running -/

/-- Runs a parser on a token list from an index. -/
def run {α : Type} (parser : Parse α) (list : TokenList) (cursor : Nat) :
    Except SyntaxFault α × Nat :=
  match ReaderT.run parser list cursor with
  | .ok result cursor => (.ok result, cursor)
  | .error fault cursor => (.error fault, cursor)

/-- Runs a parser on a token list from a cursor of either sign, which moves as far as the index
does. A list ends with an end of input, so a negative cursor stays negative. There is no result
if the cursor lies before the start of the list. -/
def runFrom {α : Type} (parser : Parse α) (list : TokenList) (cursor : Int) :
    Option (Except SyntaxFault α × Int) :=
  (list.index? cursor).map fun index =>
    let (result, after) := parser.run list index
    (result, cursor + (after - index))

end Parse

end Script
