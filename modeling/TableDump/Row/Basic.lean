import TableDump.Token.Render

/-!
# Rows

A row is what one tuple of an `INSERT` becomes: its values, each under the
name of a column, in the order of the tuple. A name may stand more than once in
a row that was not made from a tuple, and then the first one counts.
-/

namespace TableDump

/-- A value in a row. -/
inductive Cell where
  /-- No value. -/
  | null
  | integer (value : Int64)
  | real (value : Binary64)
  | text (value : String)
  deriving DecidableEq

namespace Cell

/-- The value that a token is, if it is one. -/
def ofToken? : Token → Option Cell
  | .integer value => some (integer value)
  | .real value => some (real value)
  | .text value => some (text value)
  | .keyword word => if word = .NULL then some null else none
  | _ => none

/-- A value as it is shown. Texts are enclosed in quotes, but nothing in them
is escaped. -/
def render : Cell → String
  | null => "NULL"
  | integer value => integerText value
  | real value => String.ofList value.plain
  | text value => "'" ++ value ++ "'"

end Cell

/-- Values under names of columns, in order. -/
structure Row where
  cells : List (String × Cell) := []
  deriving DecidableEq

namespace Row

/-- The value of the first column with a name. -/
def get? (row : Row) (column : String) : Option Cell := row.cells.lookup column

/-- The names of the columns. -/
def columns (row : Row) : List String := row.cells.map Prod.fst

/-- The values. -/
def values (row : Row) : List Cell := row.cells.map Prod.snd

/-- A row as it is shown. -/
def render (row : Row) : String :=
  let shown := row.cells.map fun (column, cell) => column ++ ": " ++ cell.render
  "\x7b" ++ String.intercalate ", " shown ++ "\x7d"

end Row

end TableDump
