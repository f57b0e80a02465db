import TableDump.Row.Basic

/-!
# Rows as JSON objects

A row is written as an object, its columns being the members in their order.
Nothing tells the kinds of values apart but how they are written, and that is
enough: a real always has a fraction or an exponent, which an integer never
has, and a text has quotes. The numbers that JSON does not have – infinities
and NaNs – are written as `null`.
-/

namespace TableDump

/-- The hexadecimal digit of a number below 16, in lower case. -/
def hexDigit (value : Nat) : Char := Nat.digitChar value

namespace Json

/-- How a character is written inside a string. -/
def escape (character : Char) : List Char :=
  if character = '"' then ['\\', '"']
  else if character = '\\' then ['\\', '\\']
  else if character = '\x08' then ['\\', 'b']
  else if character = '\x0C' then ['\\', 'f']
  else if character = '\n' then ['\\', 'n']
  else if character = '\r' then ['\\', 'r']
  else if character = '\t' then ['\\', 't']
  else if character.toNat < 0x20 then
    ['\\', 'u', '0', '0', hexDigit (character.toNat / 16), hexDigit (character.toNat % 16)]
  else [character]

/-- A string. -/
def string (text : String) : List Char := '"' :: (text.toList.flatMap escape ++ ['"'])

/-- Is a decimal number written with its digits in their places? -/
def isPositional (decimal : Decimal) : Bool := -5 < decimal.pointAt && decimal.pointAt ≤ 16

/-- A decimal number that is not to be taken for an integer. -/
def decimal (decimal : Decimal) : List Char :=
  if isPositional decimal then decimal.positional true else decimal.scientific

/-- **A real**, with as few digits as identify it. -/
def real (value : Binary64) : List Char :=
  if value.isFinite then
    (if value.isNegative then ['-'] else []) ++
      if value.magnitude = 0 then ['0', '.', '0']
      else decimal (Binary64.shortest .even value.magnitude)
  else ['n', 'u', 'l', 'l']

/-- A value. -/
def cell : Cell → List Char
  | .null => ['n', 'u', 'l', 'l']
  | .integer value => (integerText value).toList
  | .real value => real value
  | .text value => string value

/-- A member of an object. -/
def member (column : String × Cell) : List Char := string column.1 ++ ':' :: cell column.2

/-- **The object that a row is written as.** -/
def ofRow (row : Row) : List Char :=
  '\x7b' :: (List.intercalate [','] (row.cells.map member) ++ ['\x7d'])

end Json

/-- A row as JSON text. -/
def Row.toJson (row : Row) : String := String.ofList (Json.ofRow row)

end TableDump
