import Script.Text.Character

/-!
# Quoted texts

Two ways of writing a text on one line of ASCII or printable characters. `quoted` is used in
listings: single quotes, unless the text has a single quote and no double one. `encoded` is used
in tree dumps: double quotes, and every character outside ASCII as escaped UTF-16 units.
-/

namespace Script.Text

/-- The lower-case hexadecimal digits of `n`, padded with zeros to a width. -/
def hex (width n : Nat) : List Char :=
  let digits := Nat.toDigits 16 n
  List.replicate (width - digits.length) '0' ++ digits

/-! ## Listings -/

/-- A character that a listing does not show, by its code. -/
def numericEscape (c : Char) : List Char :=
  let n := c.toNat
  if n < 0x100 then '\\' :: 'x' :: hex 2 n
  else if n < 0x10000 then '\\' :: 'u' :: hex 4 n
  else '\\' :: 'U' :: hex 8 n

/-- A character between the given quotes of a listing. -/
def quotedChar (quote c : Char) : List Char :=
  if c = quote || c = '\\' then ['\\', c]
  else if c = '\n' then ['\\', 'n']
  else if c = '\r' then ['\\', 'r']
  else if c = '\t' then ['\\', 't']
  else if isPrintable c then [c]
  else numericEscape c

/-- The quote that a listing puts around a text. -/
def quoteFor (text : List Char) : Char :=
  if text.contains '\'' && !text.contains '"' then '"' else '\''

/-- A text as a listing shows it. -/
def quoted (text : String) : String :=
  let chars := text.toList
  let quote := quoteFor chars
  String.ofList (quote :: (chars.flatMap (quotedChar quote) ++ [quote]))

/-! ## Dumps -/

/-- An escaped UTF-16 unit. -/
def encodedUnit (n : Nat) : List Char := '\\' :: 'u' :: hex 4 n

/-- A character inside a dumped text. -/
def encodedChar (c : Char) : List Char :=
  let n := c.toNat
  if c = '"' || c = '\\' then ['\\', c]
  else if c = '\n' then ['\\', 'n']
  else if c = '\r' then ['\\', 'r']
  else if c = '\t' then ['\\', 't']
  else if n = 0x08 then ['\\', 'b']
  else if n = 0x0C then ['\\', 'f']
  else if 0x20 ≤ n && n < 0x7F then [c]
  else if n < 0x10000 then encodedUnit n
  else
    encodedUnit (0xD800 + (n - 0x10000) / 0x400) ++ encodedUnit (0xDC00 + (n - 0x10000) % 0x400)

/-- A text as a dump shows it. -/
def encoded (text : String) : String :=
  String.ofList ('"' :: (text.toList.flatMap encodedChar ++ ['"']))

end Script.Text
