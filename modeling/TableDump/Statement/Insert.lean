import TableDump.Catalog
import TableDump.Fault
import TableDump.Row.Basic

/-!
# Insertions

An `INSERT` statement names a table, perhaps the columns it fills, and then
lists tuples:

    INSERT INTO table (column, ...) VALUES (value, ...), (value, ...), ...

Each tuple becomes a row. Its columns are those that the statement names, or
else those that the catalog knows for the table, or else they are numbered:
`#0`, `#1` and so on.

The statement is read from the front, and what is wrong with it shows only when
the reading gets there. The tuples before are rows all the same. So an
insertion is its rows *and* what ends them (`Insertion.defect?`), if that is
not the end of the statement; only a fault before the first tuple means that
there is no insertion at all.

Nothing is said about the insertion into a table that is not chosen, whatever
follows its name.
-/

namespace TableDump

/-! ## Parenthesized lists -/

/-- The items of a list whose first one has the number `index`, with a comma
between any two of them. What follows the last item closes the list and is not
looked at. -/
def itemsFrom {α : Type} (item? : Token → Option α) :
    (index : Nat) → List Token → Except TupleDefect (List α)
  | _, [] => .ok []
  | index, [token] =>
    match item? token with
    | some item => .ok [item]
    | none => .error (.badItem index)
  | index, [token, _] =>
    match item? token with
    | some item => .ok [item]
    | none => .error (.badItem index)
  | index, token :: separator :: next :: rest =>
    match item? token with
    | none => .error (.badItem index)
    | some item =>
      if separator = .delimiter .comma then
        (itemsFrom item? (index + 2) (next :: rest)).map (item :: ·)
      else .error (.badSeparator (index + 2))

/-- **The items of a parenthesized list.** The parentheses are tokens of it;
indices count them. -/
def tupleItems {α : Type} (item? : Token → Option α) (tuple : List Token) :
    Except TupleDefect (List α) :=
  match tuple with
  | .delimiter .leftParen :: inside =>
    if inside.getLast? = some (.delimiter .rightParen) then itemsFrom item? 1 inside
    else .error .unbounded
  | _ => .error .unbounded

/-- The items of a parenthesized list, or what is wrong with it. -/
def listed {α : Type} (item? : Token → Option α) (tuple : List Token) :
    Except ShapeFault (List α) :=
  (tupleItems item? tuple).mapError (.malformedTuple (Token.renderAll tuple))

/-- The first item that stands further to the front already, or among
`seen`. -/
def firstRepeated? (seen : List String) : List String → Option String
  | [] => none
  | item :: rest => if seen.contains item then some item else firstRepeated? (item :: seen) rest

/-- The columns are named once each. -/
def ensureDistinct (table : String) (columns : List String) : Except ShapeFault Unit :=
  match firstRepeated? [] columns with
  | some column => .error (.duplicateColumn table column)
  | none => .ok ()

/-! ## Rows -/

/-- The names of columns that have none. -/
def numberedColumns (count : Nat) : List String :=
  (List.range count).map fun index => "#" ++ index.repr

/-- The values under the names of the columns, which are as many if they are
known. -/
def rowOf (table : String) (columns? : Option (List String)) (values : List Cell) :
    Except ShapeFault Row :=
  match columns? with
  | none => .ok { cells := (numberedColumns values.length).zip values }
  | some columns =>
    if columns.length = values.length then .ok { cells := columns.zip values }
    else .error (.arityMismatch table columns.length values.length)

/-- The row that a tuple is. -/
def tupleRow (table : String) (columns? : Option (List String)) (tuple : List Token) :
    Except ShapeFault Row := do
  let values ← listed Cell.ofToken? tuple
  rowOf table columns? values

/-! ## The statement -/

/-- How many characters of a statement are quoted. -/
def quotedLength : Nat := 120

/-- The beginning of the text of a statement. -/
def Statement.quote (statement : Statement) : String :=
  let characters := statement.render.toList
  if characters.length ≤ quotedLength then String.ofList characters
  else String.ofList (characters.take quotedLength ++ ['.', '.', '.'])

/-- Rows for a table, and what stopped the reading of more. -/
structure Insertion where
  /-- The name of the table, as the statement has it. -/
  table : String
  /-- The rows, in order. -/
  rows : List Row
  /-- What is wrong with the statement behind the last of the rows. -/
  defect? : Option ShapeFault

namespace Insertion

/-- **The tuples of an insertion**: at least one, and a comma between any two
of them. Gives their rows, and what is wrong behind the last of these. -/
def readTuples (statement : Statement) (table : String) (columns? : Option (List String)) :
    (before : List Row) → List Token → List Row × Option ShapeFault
  | before, [] => (before.reverse, some (.missingTuple statement.quote))
  | before, .group tuple :: rest =>
    match tupleRow table columns? tuple with
    | .error fault => (before.reverse, some fault)
    | .ok row =>
      match rest with
      | [] => ((row :: before).reverse, none)
      | separator :: rest =>
        if separator = .delimiter .comma then
          readTuples statement table columns? (row :: before) rest
        else
          ((row :: before).reverse,
            some (.unexpectedToken .separator separator.render statement.quote))
  | before, token :: _ =>
    (before.reverse, some (.unexpectedToken .tuple token.render statement.quote))

/-- The columns that a statement names. -/
def namedColumns (table : String) (list : List Token) : Except ShapeFault (List String) := do
  let columns ← listed Token.name? list
  ensureDistinct table columns
  return columns

/-- The insertion with the tuples in `tokens`. -/
def ofTuples (statement : Statement) (table : String) (columns? : Option (List String))
    (tokens : List Token) : Insertion :=
  let (rows, defect?) := readTuples statement table columns? [] tokens
  { table, rows, defect? }

/-- **The insertion that a statement asks for**; none if its table is not
chosen. No insertion is shorter than five tokens. -/
def ofStatement (statement : Statement) (selection : Selection) (catalog : Catalog) :
    Except ShapeFault (Option Insertion) :=
  match statement.tokens with
  | _ :: into :: named :: third :: fourth :: rest =>
    if into ≠ .keyword .INTO then .error (.missingInto statement.quote)
    else
      match named with
      | .identifier table =>
        if selection.contains table then
          match third with
          | .group list =>
            match namedColumns table list with
            | .error fault => .error fault
            | .ok columns =>
              if fourth = .keyword .VALUES then
                .ok (some (ofTuples statement table (some columns) rest))
              else .error (.missingValues statement.quote)
          | _ =>
            if third = .keyword .VALUES then
              .ok (some (ofTuples statement table (catalog.fields? table) (fourth :: rest)))
            else .error (.missingColumnsOrValues statement.quote)
        else .ok none
      | _ => .error (.expectedTableName named.render statement.quote)
  | _ => .error (.statementTooShort statement.quote)

end Insertion

end TableDump
