import Script.Number.Decimal
import Script.Text.Character

/-!
# Reading numerals

A numeral is digits with an optional fraction and an optional power of ten, perhaps with a sign;
`inf`, `infinity` and `nan` are numerals too. The digits may be those of any script, single
underscores may stand between them, and blanks around a numeral are ignored. Reading rounds the
exact decimal once.
-/

namespace Script

/-- The digits `0` to `9`. -/
def isDigit (c : Char) : Bool := decide ('0' ≤ c) && decide (c ≤ '9')

/-- The value of a digit. -/
def digitValue (c : Char) : Nat := c.toNat - '0'.toNat

namespace Numeral

/-- The value of a digit string. -/
def natural (digits : List Char) : Nat := digits.foldl (fun n c => 10 * n + digitValue c) 0

/-- Removes the underscores that stand between two digits. -/
def joinDigits : List Char → List Char
  | a :: '_' :: b :: rest =>
    if isDigit a && isDigit b then a :: joinDigits (b :: rest)
    else a :: '_' :: joinDigits (b :: rest)
  | a :: rest => a :: joinDigits rest
  | [] => []
termination_by text => text.length

/-- Splits off a sign: whether it is a minus, and what follows it. -/
def splitSign : List Char → Bool × List Char
  | '-' :: rest => (true, rest)
  | '+' :: rest => (false, rest)
  | text => (false, text)

/-- Reads the power of ten that ends a numeral, `0` if there is none. -/
def power? : List Char → Option Int
  | [] => some 0
  | mark :: rest =>
    let (negative, digits) := splitSign rest
    if (mark = 'e' || mark = 'E') && !digits.isEmpty && digits.all isDigit then
      some (if negative then -(natural digits : Int) else natural digits)
    else none

/-- Splits off a fraction: its digits, and what follows them. -/
def splitFraction : List Char → List Char × List Char
  | '.' :: rest => rest.span isDigit
  | text => ([], text)

/-- Reads an unsigned decimal. -/
def decimal? (text : List Char) : Option Decimal := do
  let (whole, afterWhole) := text.span isDigit
  let (fraction, afterFraction) := splitFraction afterWhole
  let power ← power? afterFraction
  if whole.isEmpty && fraction.isEmpty then none
  else some ⟨natural (whole ++ fraction), power - fraction.length⟩

/-- Reads a numeral. -/
def number? (text : String) : Option Number :=
  let (negative, body) := splitSign (joinDigits ((Text.trim text.toList).map Text.plainDigit))
  let word := String.ofList (body.map Char.toLower)
  if word = "nan" then some .nan
  else if word = "inf" || word = "infinity" then some (.ofRank negative Number.infinityRank)
  else (decimal? body).map (·.toNumber negative)

/-- The value of a numeral; NaN for a text that is none. -/
def value (text : String) : Number := (number? text).getD .nan

end Numeral

end Script
