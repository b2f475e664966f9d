import Script.Source

/-!
# Tokens

The words, symbols and literals of the language. A token has a kind, a text and the position of
its first character; the text of a string token is what the literal stands for. `Kind.name` is
the name under which listings show a kind.
-/

namespace Script

/-- The reserved words. -/
inductive Keyword where
  | constant | mutable | procedure | returns | incase | elif | otherwise | drift | through
  | leave | proceed | yes | no | null | nullPointer | notANumber
deriving DecidableEq, Repr

namespace Keyword

def all : List Keyword :=
  [.constant, .mutable, .procedure, .returns, .incase, .elif, .otherwise, .drift, .through,
   .leave, .proceed, .yes, .no, .null, .nullPointer, .notANumber]

/-- How a reserved word is written. -/
def spelling : Keyword → String
  | .constant => "const"
  | .mutable => "mut"
  | .procedure => "procedure"
  | .returns => "returns"
  | .incase => "incase"
  | .elif => "elif"
  | .otherwise => "else"
  | .drift => "drift"
  | .through => "through"
  | .leave => "break"
  | .proceed => "continue"
  | .yes => "true"
  | .no => "false"
  | .null => "null"
  | .nullPointer => "nullptr"
  | .notANumber => "NaN"

/-- The name of a reserved word in listings. -/
def name : Keyword → String
  | .constant => "CONST"
  | .mutable => "MUT"
  | .procedure => "PROCEDURE"
  | .returns => "RETURNS"
  | .incase => "INCASE"
  | .elif => "ELIF"
  | .otherwise => "ELSE"
  | .drift => "DRIFT"
  | .through => "THROUGH"
  | .leave => "BREAK"
  | .proceed => "CONTINUE"
  | .yes => "TRUE"
  | .no => "FALSE"
  | .null => "NULL"
  | .nullPointer => "NULLPTR"
  | .notANumber => "NAN"

/-- The reserved word with a spelling. -/
def ofSpelling? (word : String) : Option Keyword := all.find? (·.spelling = word)

end Keyword

/-- The operators and delimiters. -/
inductive Symbol where
  | arrow | pipeGreater | and | or | equalEqual | notEqual | lessEqual | greaterEqual
  | plus | minus | star | slash | equals | less | greater | not | ampersand | pipe
  | semicolon | leftParen | rightParen | leftBrace | rightBrace | leftBracket | rightBracket
  | comma | dot | colon
deriving DecidableEq, Repr

namespace Symbol

def all : List Symbol :=
  [.arrow, .pipeGreater, .and, .or, .equalEqual, .notEqual, .lessEqual, .greaterEqual,
   .plus, .minus, .star, .slash, .equals, .less, .greater, .not, .ampersand, .pipe,
   .semicolon, .leftParen, .rightParen, .leftBrace, .rightBrace, .leftBracket, .rightBracket,
   .comma, .dot, .colon]

/-- How a symbol is written. -/
def spelling : Symbol → List Char
  | .arrow => ['-', '>']
  | .pipeGreater => ['|', '>']
  | .and => ['&', '&']
  | .or => ['|', '|']
  | .equalEqual => ['=', '=']
  | .notEqual => ['!', '=']
  | .lessEqual => ['<', '=']
  | .greaterEqual => ['>', '=']
  | .plus => ['+']
  | .minus => ['-']
  | .star => ['*']
  | .slash => ['/']
  | .equals => ['=']
  | .less => ['<']
  | .greater => ['>']
  | .not => ['!']
  | .ampersand => ['&']
  | .pipe => ['|']
  | .semicolon => [';']
  | .leftParen => ['(']
  | .rightParen => [')']
  | .leftBrace => ['\x7b']
  | .rightBrace => ['\x7d']
  | .leftBracket => ['[']
  | .rightBracket => [']']
  | .comma => [',']
  | .dot => ['.']
  | .colon => [':']

/-- The name of a symbol in listings. -/
def name : Symbol → String
  | .arrow => "ARROW"
  | .pipeGreater => "PIPE_GREATER"
  | .and => "AND"
  | .or => "OR"
  | .equalEqual => "EQUAL_EQUAL"
  | .notEqual => "NOT_EQUAL"
  | .lessEqual => "LESS_EQUAL"
  | .greaterEqual => "GREATER_EQUAL"
  | .plus => "PLUS"
  | .minus => "MINUS"
  | .star => "STAR"
  | .slash => "SLASH"
  | .equals => "EQUALS"
  | .less => "LESS_THAN"
  | .greater => "GREATER_THAN"
  | .not => "NOT"
  | .ampersand => "AMPERSAND"
  | .pipe => "PIPE"
  | .semicolon => "SEMICOLON"
  | .leftParen => "LPAREN"
  | .rightParen => "RPAREN"
  | .leftBrace => "LBRACE"
  | .rightBrace => "RBRACE"
  | .leftBracket => "LBRACKET"
  | .rightBracket => "RBRACKET"
  | .comma => "COMMA"
  | .dot => "DOT"
  | .colon => "COLON"

/-- The symbol with a spelling. -/
def ofSpelling? (text : List Char) : Option Symbol := all.find? (·.spelling = text)

end Symbol

/-- The kinds of tokens. `other` is a kind that the lexer never makes. -/
inductive Kind where
  | keyword (word : Keyword)
  | symbol (mark : Symbol)
  | identifier
  | number
  | string
  | endOfInput
  | other (name : String)
deriving DecidableEq, Repr

namespace Kind

/-- The name of a kind in listings. -/
def name : Kind → String
  | .keyword word => word.name
  | .symbol mark => mark.name
  | .identifier => "IDENTIFIER"
  | .number => "NUMBER"
  | .string => "STRING"
  | .endOfInput => "EOF"
  | .other name => name

/-- Every kind that the lexer makes. -/
def all : List Kind :=
  Keyword.all.map .keyword ++ Symbol.all.map .symbol ++
    [.identifier, .number, .string, .endOfInput]

/-- The kind with a name. -/
def ofName (name : String) : Kind := (all.find? (·.name = name)).getD (.other name)

end Kind

/-- A token. -/
structure Token where
  kind : Kind
  /-- The word, symbol or numeral as written; for a string, what it stands for. -/
  text : String
  /-- Where the token starts. -/
  position : Position
deriving DecidableEq, Repr

namespace Token

/-- The token that ends every token list. -/
def endAt (position : Position) : Token := ⟨.endOfInput, "", position⟩

/-- A token as a session shows it. -/
def summary (token : Token) : String := s!"Token({token.kind.name}, {token.text})"

end Token

end Script
