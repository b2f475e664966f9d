import Script.Proofs.Token.Layout
import Script.Tree

/-!
# Printing programs

How a program is written as source text. A tree is first turned into spellings, with parentheses
only where the levels of the operators demand them, and the spellings are then laid out with a blank
between any two that would run into each other.

Numbers are written as a given function says. A program is `Printable` if it can be written at all:
its names are names of the language, its operators have rules, its numbers have numerals, and its
statements have the form that the language has for them.
-/

namespace Script

/-! ## Spellings of single tokens -/

namespace Spelling

def mark (symbol : Symbol) : Spelling := ⟨.symbol symbol, symbol.spelling, symbol.spelling⟩

def keyword (word : Keyword) : Spelling :=
  ⟨.keyword word, word.spelling.toList, word.spelling.toList⟩

def name (text : String) : Spelling := ⟨.identifier, text.toList, text.toList⟩

def numeral (text : List Char) : Spelling := ⟨.number, text, text⟩

/-- How a character is written inside a string. -/
def escape (c : Char) : List Char :=
  if c = '\\' then ['\\', '\\']
  else if c = '"' then ['\\', '"']
  else if c = '\n' then ['\\', 'n']
  else if c = '\t' then ['\\', 't']
  else if c = '\r' then ['\\', 'r']
  else [c]

def string (value : String) : Spelling :=
  ⟨.string, value.toList, '"' :: (value.toList.flatMap escape ++ ['"'])⟩

/-- The word that declares a constant, or a name that can be assigned to. -/
def declarator (constant : Bool) : Spelling := keyword (if constant then .constant else .mutable)

end Spelling

open Spelling

/-- Spellings inside brackets of some form. -/
def between (opening : Symbol) (inner : List Spelling) (closing : Symbol) : List Spelling :=
  mark opening :: (inner ++ [mark closing])

/-- Phrases with commas between them. -/
def separated : List (List Spelling) → List Spelling
  | [] => []
  | [phrase] => phrase
  | phrase :: next :: rest => phrase ++ mark .comma :: separated (next :: rest)

/-! ## Levels -/

namespace BinaryOp

/-- The level of an operator, loosest first. -/
def level : BinaryOp → Nat
  | .or => 0
  | .and => 1
  | .bitOr => 2
  | .bitAnd => 3
  | .equal | .notEqual => 4
  | .less | .greater | .atMost | .atLeast => 5
  | .add | .subtract => 6
  | .multiply | .divide => 7
  | .other _ => 0

/-- The symbol of an operator that has a rule. -/
def symbol? : BinaryOp → Option Symbol
  | .or => some .or
  | .and => some .and
  | .bitOr => some .pipe
  | .bitAnd => some .ampersand
  | .equal => some .equalEqual
  | .notEqual => some .notEqual
  | .less => some .less
  | .greater => some .greater
  | .atMost => some .lessEqual
  | .atLeast => some .greaterEqual
  | .add => some .plus
  | .subtract => some .minus
  | .multiply => some .star
  | .divide => some .slash
  | .other _ => none

end BinaryOp

/-- The symbol of an operator before its operand that has a rule. -/
def UnaryOp.symbol? : UnaryOp → Option Symbol
  | .not => some .not
  | .negate => some .minus
  | .other _ => none

/-- The level of operators before an operand, behind all levels of binary operators. -/
def prefixLevel : Nat := 8

/-- The level of chains and of what they start with. -/
def chainLevel : Nat := 9

/-- The level of an expression: that of its outermost operator. -/
def Expr.level : Expr → Nat
  | .binary _ operator _ _ => operator.level
  | .unary .. => prefixLevel
  | _ => chainLevel

/-- A phrase in parentheses, if need be. -/
def enclosed (loose : Bool) (phrase : List Spelling) : List Spelling :=
  if loose then between .leftParen phrase .rightParen else phrase

/-! ## Trees -/

section

variable (numeral : Number → List Char)

mutual

/-- How an expression is written. What has no place in a source text is written as nothing. -/
def Expr.spellings : Expr → List Spelling
  | .number _ value => [Spelling.numeral (numeral value)]
  | .string _ value => [Spelling.string value]
  | .boolean _ value => [keyword (if value then .yes else .no)]
  | .null _ => [keyword .null]
  | .nan _ => [keyword .notANumber]
  | .identifier _ text => [name text]
  | .array _ elements => between .leftBracket (separated (elementSpellings elements)) .rightBracket
  | .object _ properties =>
    between .leftBrace (separated (propertySpellings properties)) .rightBrace
  | .binary _ operator left right =>
    -- an operand on the right is enclosed at the same level too, since all levels associate left
    enclosed (left.level < operator.level) left.spellings ++
      (operator.symbol?.toList.map mark ++
        enclosed (right.level ≤ operator.level) right.spellings)
  | .unary _ operator operand =>
    operator.symbol?.toList.map mark ++ enclosed (operand.level < prefixLevel) operand.spellings
  | .member _ object property =>
    enclosed (object.level < chainLevel) object.spellings ++ [mark .dot, name property]
  | .computed _ object key =>
    enclosed (object.level < chainLevel) object.spellings ++
      between .leftBracket key.spellings .rightBracket
  | .call _ callee arguments =>
    enclosed (callee.level < chainLevel) callee.spellings ++
      between .leftParen (separated (elementSpellings arguments)) .rightParen
  | .foreign .. => []

/-- How some expressions are written, one by one. -/
def elementSpellings : List Expr → List (List Spelling)
  | [] => []
  | e :: rest => e.spellings :: elementSpellings rest

/-- How some properties are written, one by one. -/
def propertySpellings : List (String × Expr) → List (List Spelling)
  | [] => []
  | (key, e) :: rest => (name key :: mark .colon :: e.spellings) :: propertySpellings rest

end

/-- A declaration without what ends a statement. -/
def declarationSpellings (text : String) (constant : Bool) (value : Expr) : List Spelling :=
  declarator constant :: name text :: mark .equals :: value.spellings numeral

/-- A target, `=` and a value. -/
def assignmentSpellings (target value : Expr) : List Spelling :=
  target.spellings numeral ++ mark .equals :: value.spellings numeral

/-- A condition in parentheses. -/
def conditionSpellings (condition : Expr) : List Spelling :=
  between .leftParen (condition.spellings numeral) .rightParen

/-- Parameters in parentheses. -/
def parameterSpellings (parameters : List String) : List Spelling :=
  between .leftParen (separated (parameters.map fun text => [name text])) .rightParen

mutual

/-- How a statement is written. -/
def Stmt.spellings : Stmt → List Spelling
  | .declare _ text constant value =>
    declarationSpellings numeral text constant value ++ [mark .semicolon]
  | .assign _ text value =>
    assignmentSpellings numeral (.identifier default text) value ++ [mark .semicolon]
  | .assignMember _ object property value =>
    assignmentSpellings numeral (.member default object property) value ++ [mark .semicolon]
  | .assignComputed _ object key value =>
    assignmentSpellings numeral (.computed default object key) value ++ [mark .semicolon]
  | .procedure _ text parameters body =>
    keyword .procedure :: name text :: (parameterSpellings parameters ++
      between .leftBrace (blockSpellings body) .rightBrace)
  | .returns _ value => keyword .returns :: (value.spellings numeral ++ [mark .semicolon])
  | .leave _ => [keyword .leave, mark .semicolon]
  | .proceed _ => [keyword .proceed, mark .semicolon]
  | .incase _ condition body fallback =>
    keyword .incase :: (conditionSpellings numeral condition ++
      (between .leftBrace (blockSpellings body) .rightBrace ++ fallback.spellings))
  | .drift _ (.declare _ first constant value) condition (.assign _ text update) body =>
    keyword .drift :: (between .leftParen
      (declarationSpellings numeral first constant value ++ mark .semicolon ::
        (condition.spellings numeral ++ mark .semicolon ::
          assignmentSpellings numeral (.identifier default text) update)) .rightParen ++
      between .leftBrace (blockSpellings body) .rightBrace)
  | .drift .. => []
  | .through _ text constant iterable body =>
    keyword .drift :: (between .leftParen
      (declarator constant :: name text :: keyword .through :: iterable.spellings numeral)
        .rightParen ++
      between .leftBrace (blockSpellings body) .rightBrace)
  | .expression value => value.spellings numeral ++ [mark .semicolon]

/-- How the branches behind the body of a conditional are written. -/
def Fallback.spellings : Fallback → List Spelling
  | .nothing => []
  | .block body =>
    keyword .otherwise :: between .leftBrace (blockSpellings body) .rightBrace
  | .elif _ condition body fallback =>
    keyword .elif :: (conditionSpellings numeral condition ++
      (between .leftBrace (blockSpellings body) .rightBrace ++ fallback.spellings))

/-- How some statements are written. -/
def blockSpellings : List Stmt → List Spelling
  | [] => []
  | s :: rest => s.spellings ++ blockSpellings rest

end

end

/-! ## Text -/

/-- Whether two spellings would run into each other. -/
def touches (first second : List Char) : Bool :=
  first.getLast?.any Lexer.isWordPart && second.head?.any Lexer.isWordPart

/-- Spellings one behind the other, behind an earlier one, with blanks where they would run into
each other. -/
def layOut : Option (List Char) → List (List Char) → List Char
  | _, [] => []
  | before, raw :: raws =>
    (if before.any (touches · raw) then [' '] else []) ++ (raw ++ layOut (some raw) raws)

namespace Program

variable (numeral : Number → List Char) (program : Program)

/-- How a program is written. -/
def spellings : List Spelling := blockSpellings numeral program.body

/-- The source text of a program. -/
def print : String :=
  String.ofList (layOut none ((program.spellings numeral).map Spelling.raw))

end Program

/-! ## What can be printed -/

/-- A name that is no reserved word. -/
def IsName (text : String) : Prop :=
  IsWord text.toList ∧ ∀ word, Keyword.spelling word ≠ text

/-- Digits, perhaps with a point and further digits, that are read as a number. -/
def IsNumeral (text : List Char) (value : Number) : Prop :=
  (Digits text ∨ ∃ whole fraction, Digits whole ∧ Digits fraction ∧
    text = whole ++ '.' :: fraction) ∧ Numeral.number? (String.ofList text) = some value

/-- A name with members, keys and calls behind it. -/
def Expr.isRooted : Expr → Bool
  | .identifier .. => true
  | .member _ inner _ | .computed _ inner _ | .call _ inner _ => inner.isRooted
  | _ => false

section

variable (numeral : Number → List Char)

mutual

/-- An expression that can be written. -/
def Expr.Printable : Expr → Prop
  | .number _ value => IsNumeral (numeral value) value
  | .string .. | .boolean .. | .null _ | .nan _ => True
  | .identifier _ text => IsName text
  | .array _ elements => ElementsPrintable elements
  | .object _ properties => PropertiesPrintable properties
  | .binary _ operator left right => operator.symbol?.isSome ∧ left.Printable ∧ right.Printable
  | .unary _ operator operand => operator.symbol?.isSome ∧ operand.Printable
  | .member _ object property => object.Printable ∧ IsName property
  | .computed _ object key => object.Printable ∧ key.Printable
  | .call _ callee arguments => callee.Printable ∧ ElementsPrintable arguments
  | .foreign .. => False

def ElementsPrintable : List Expr → Prop
  | [] => True
  | e :: rest => e.Printable ∧ ElementsPrintable rest

def PropertiesPrintable : List (String × Expr) → Prop
  | [] => True
  | (key, e) :: rest => IsName key ∧ e.Printable ∧ PropertiesPrintable rest

end

mutual

/-- A statement that can be written. -/
def Stmt.Printable : Stmt → Prop
  | .declare _ text _ value => IsName text ∧ value.Printable numeral
  | .assign _ text value => IsName text ∧ value.Printable numeral
  | .assignMember _ object property value =>
    object.isRooted ∧ object.Printable numeral ∧ IsName property ∧ value.Printable numeral
  | .assignComputed _ object key value =>
    object.isRooted ∧ object.Printable numeral ∧ key.Printable numeral ∧ value.Printable numeral
  | .procedure _ text parameters body =>
    IsName text ∧ (∀ parameter ∈ parameters, IsName parameter) ∧ parameters.Nodup ∧
      BlockPrintable body
  | .returns _ value => value.Printable numeral
  | .leave _ | .proceed _ => True
  | .incase _ condition body fallback =>
    condition.Printable numeral ∧ BlockPrintable body ∧ fallback.Printable
  | .drift _ (.declare _ first _ value) condition (.assign _ text update) body =>
    IsName first ∧ value.Printable numeral ∧ condition.Printable numeral ∧ IsName text ∧
      update.Printable numeral ∧ BlockPrintable body
  | .drift .. => False
  | .through _ text _ iterable body =>
    IsName text ∧ iterable.Printable numeral ∧ BlockPrintable body
  | .expression value => value.Printable numeral

def Fallback.Printable : Fallback → Prop
  | .nothing => True
  | .block body => BlockPrintable body
  | .elif _ condition body fallback =>
    condition.Printable numeral ∧ BlockPrintable body ∧ fallback.Printable

def BlockPrintable : List Stmt → Prop
  | [] => True
  | s :: rest => s.Printable ∧ BlockPrintable rest

end

end

/-- A program that can be written, its numbers as a function says. -/
def Program.Printable (numeral : Number → List Char) (program : Program) : Prop :=
  BlockPrintable numeral program.body

end Script
