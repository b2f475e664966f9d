import Script.Number.Decimal

/-!
# The text of a number

A `Layout` says how the digits of a number are written: which magnitudes are written without an
exponent, how the exponent looks, and what stands for the numbers that have no digits. The
language uses two: `Layout.display` for what programs print, `Layout.literal` for trees.
-/

namespace Script

/-- The decisions that turn a number into text. -/
structure Layout where
  /-- The least power of ten of a first digit that is written without an exponent. -/
  lowest : Int
  /-- The greatest power of ten of a first digit that is written without an exponent. -/
  highest : Int
  /-- What ends a whole number that has no exponent. -/
  wholeMark : String
  /-- The least number of digits of an exponent. -/
  exponentWidth : Nat
  /-- Whether the sign of a negative zero is written. -/
  signsZero : Bool
  /-- The text of NaN. -/
  nan : String
  /-- The text of positive infinity. -/
  infinity : String
deriving DecidableEq, Repr

namespace Layout

/-- Printed numbers: plain digits from `1e-6` to below `1e21`, no mark on whole numbers. -/
def display : Layout where
  lowest := -6
  highest := 20
  wholeMark := ""
  exponentWidth := 1
  signsZero := false
  nan := "NaN"
  infinity := "Infinity"

/-- Numbers in trees: plain digits from `1e-4` to below `1e16`, whole numbers end in `.0`. -/
def literal : Layout where
  lowest := -4
  highest := 15
  wholeMark := ".0"
  exponentWidth := 2
  signsZero := true
  nan := "nan"
  infinity := "inf"

/-- A digit string with a point before its last `-exponent` digits. -/
def plain (layout : Layout) (digits : List Char) (exponent : Int) : String :=
  if 0 ≤ exponent then
    String.ofList (digits ++ List.replicate exponent.toNat '0') ++ layout.wholeMark
  else
    let whole := digits.length + exponent
    if 0 < whole then
      String.ofList (digits.take whole.toNat ++ '.' :: digits.drop whole.toNat)
    else
      String.ofList ('0' :: '.' :: (List.replicate (-whole).toNat '0' ++ digits))

/-- A digit string with a point after its first digit and a power of ten behind it. -/
def scientific (layout : Layout) (digits : List Char) (power : Int) : String :=
  let mantissa := match digits with
    | first :: second :: rest => first :: '.' :: second :: rest
    | short => short
  let exponent := Nat.toDigits 10 power.natAbs
  let padding := List.replicate (layout.exponentWidth - exponent.length) '0'
  let sign := if power < 0 then '-' else '+'
  String.ofList (mantissa ++ 'e' :: sign :: (padding ++ exponent))

/-- The text of a decimal. -/
def decimal (layout : Layout) (d : Decimal) : String :=
  if layout.lowest ≤ d.magnitude ∧ d.magnitude ≤ layout.highest then
    layout.plain d.digits d.exponent
  else layout.scientific d.digits d.magnitude

/-- The text of a number. -/
def number (layout : Layout) (x : Number) : String :=
  if x.isNaN then layout.nan
  else
    let signed := x.negative && (layout.signsZero || !x.isZero)
    let body := if x.isInfinite then layout.infinity else layout.decimal (Number.shortest x.rank)
    if signed then "-" ++ body else body

end Layout

namespace Number

/-- What a program prints for a number. -/
def display (x : Number) : String := Layout.display.number x

/-- What a tree shows for a number. -/
def literal (x : Number) : String := Layout.literal.number x

end Number

end Script
