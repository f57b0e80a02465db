/-!
# What can go wrong, and how it is said

A fault is one of four kinds of thing, and the kinds are kept apart in the
type because they are handled differently:

* the input cannot be read as statements (`Fault.malformed`) – always with the
  place where the reading stopped;
* a statement was read but does not say what an `INSERT` or `CREATE TABLE`
  must say (`Fault.shape`) – with the text of the statement, or the names
  involved;
* a position or range was asked for that is not there (`Fault.access`);
* the source of the input failed (`Fault.source`), and its own error is
  passed on untouched.

The wording is in one place, `Fault.message`; everything else that a reader of
a fault may want (`category`, `offset?`, `excerpt?`) is read off the
constructors.
-/

namespace TableDump

/-! ## Failures of a source -/

/-- The reasons for which a source may refuse to give bytes. Only one of them is
told apart from the others: after an interruption one asks again. -/
inductive FailureKind where
  | interrupted
  /-- Any other reason, by its name. -/
  | named (name : String)
  deriving DecidableEq, Repr

/-- A refusal of a source, in the source's own words. -/
structure SourceError where
  /-- The reason. -/
  kind : FailureKind
  /-- What the source says about it. -/
  message : String
  deriving DecidableEq, Repr

/-! ## Input that is no statement -/

/-- A place in the input: how far from its start, and what stands there. -/
structure Place where
  /-- Bytes from the start of the input. -/
  offset : Nat
  /-- The beginning of what has not been read, as text. -/
  excerpt : String
  deriving DecidableEq, Repr

/-- Why the bytes at some place cannot be read on. The first five are about a
single token or comment, the last two about parentheses. -/
inductive Malformation where
  /-- A block comment that is never closed. -/
  | unterminatedComment
  /-- A string that is never closed, with its quote. -/
  | unterminatedString (quote : Char)
  /-- A name in backticks that is never closed. -/
  | unterminatedName
  /-- A byte that no token begins with. -/
  | unexpectedCharacter (found : Char)
  /-- A number that is too large for its type. -/
  | invalidNumber (literal : String)
  /-- The input ended inside a group. -/
  | missingDelimiter (expected : Char)
  /-- More groups inside one another than allowed. -/
  | nestingTooDeep (limit : Nat)
  deriving DecidableEq, Repr

/-- Is it the balance of parentheses that fails, and not a token? -/
def Malformation.isStructural : Malformation → Bool
  | missingDelimiter _ | nestingTooDeep _ => true
  | _ => false

/-- What is wrong, without the place. -/
def Malformation.phrase : Malformation → String
  | unterminatedComment => "unterminated comment"
  | unterminatedString quote => "no closing delimiter for string " ++ quote.toString
  | unterminatedName => "no closing backtick"
  | unexpectedCharacter found => "unexpected \"" ++ found.toString ++ "\""
  | invalidNumber literal => "invalid numeric literal " ++ literal
  | missingDelimiter expected =>
    "group closing delimiter \"" ++ expected.toString ++ "\" not found"
  | nestingTooDeep limit => "groups nested deeper than " ++ limit.repr

/-! ## Statements that do not say what they should -/

/-- What stands wrong in a parenthesized list. Indices count the tokens of the
list, its opening parenthesis being number 0. -/
inductive TupleDefect where
  /-- The list is not enclosed in parentheses. -/
  | unbounded
  /-- Two items are not separated by a comma; the second is at `index`. -/
  | badSeparator (index : Nat)
  /-- What stands at `index` is no item. -/
  | badItem (index : Nat)
  deriving DecidableEq, Repr

/-- The wording of a defect. -/
def TupleDefect.phrase : TupleDefect → String
  | unbounded => "bad opening or closing delimiter"
  | badSeparator index => "bad delimiter at index #" ++ index.repr
  | badItem index => "bad value at index #" ++ index.repr

/-- What an `INSERT` needs next when it is at its tuples. -/
inductive Wanted where
  | tuple
  | separator
  deriving DecidableEq, Repr

/-- The wording of what is needed. -/
def Wanted.phrase : Wanted → String
  | tuple => "values tuple"
  | separator => "delimiter"

/-- Why a statement that was read cannot be carried out. `statement` is the
beginning of its text. -/
inductive ShapeFault where
  /-- Fewer tokens than the shortest valid `INSERT` has. -/
  | statementTooShort (statement : String)
  /-- An `INSERT` without `INTO`. -/
  | missingInto (statement : String)
  /-- Something else where the name of the table should stand. -/
  | expectedTableName (found statement : String)
  /-- Neither columns nor `VALUES` after the name of the table. -/
  | missingColumnsOrValues (statement : String)
  /-- Columns, but no `VALUES` after them. -/
  | missingValues (statement : String)
  /-- No tuple after `VALUES` or after a comma. -/
  | missingTuple (statement : String)
  /-- Something else where a tuple or a comma should stand. -/
  | unexpectedToken (wanted : Wanted) (found statement : String)
  /-- A tuple, or a list of columns, that is no list. -/
  | malformedTuple (tuple : String) (defect : TupleDefect)
  /-- A tuple whose length is not the number of columns. -/
  | arityMismatch (table : String) (columns values : Nat)
  /-- A column that is named twice. -/
  | duplicateColumn (table column : String)
  deriving DecidableEq, Repr

/-- The wording of a fault of shape. -/
def ShapeFault.phrase : ShapeFault → String
  | statementTooShort statement => "statement is too short: " ++ statement
  | missingInto statement => "\"INSERT\" is not followed by \"INTO\": " ++ statement
  | expectedTableName found statement =>
    "table name expected, \"" ++ found ++ "\" found: " ++ statement
  | missingColumnsOrValues statement =>
    "\"INSERT\" statement doesn't include column names or \"VALUES\" keyword: " ++ statement
  | missingValues statement =>
    "\"INSERT\" statement doesn't include \"VALUES\" keyword: " ++ statement
  | missingTuple statement => "values tuple expected at end of statement: " ++ statement
  | unexpectedToken wanted found statement =>
    wanted.phrase ++ " expected, \"" ++ found ++ "\" found: " ++ statement
  | malformedTuple tuple defect => "failed to parse tuple (" ++ tuple ++ "), " ++ defect.phrase
  | arityMismatch table columns values =>
    "tuple for table " ++ table ++ " has " ++ values.repr ++ " values but " ++ columns.repr
      ++ " columns are known"
  | duplicateColumn table column =>
    "column " ++ column ++ " is listed more than once for table " ++ table

/-! ## Positions that are not there -/

/-- Why a position or a range cannot be had. -/
inductive AccessFault where
  /-- The position has been released. -/
  | discarded (position floor : Nat)
  /-- The range is inverted, or passes the end of the input. -/
  | invalidRange (start stop : Nat)
  /-- The range was handed out, and its beginning has been released since. -/
  | stale (start floor : Nat)
  deriving DecidableEq, Repr

/-- The wording of a fault of access. -/
def AccessFault.phrase : AccessFault → String
  | discarded position floor =>
    "position " ++ position.repr ++ " is in discarded data (discard offset " ++ floor.repr ++ ")"
  | invalidRange start stop => "invalid range " ++ start.repr ++ ".." ++ stop.repr
  | stale start floor =>
    "range starting at " ++ start.repr ++ " was invalidated by a discard up to " ++ floor.repr

/-! ## All of them -/

/-- **Everything that can go wrong.** -/
inductive Fault where
  /-- The input at `place` cannot be read on. -/
  | malformed (cause : Malformation) (place : Place)
  /-- A statement does not say what it should. -/
  | shape (fault : ShapeFault)
  /-- A position is not there. -/
  | access (fault : AccessFault)
  /-- The source of the input failed. -/
  | source (error : SourceError)
  deriving DecidableEq, Repr

/-- The coarse classes of faults. -/
inductive Category where
  | lexical
  | structural
  | semantic
  | contract
  | io
  deriving DecidableEq, Repr

namespace Fault

/-- The class of a fault. -/
def category : Fault → Category
  | malformed cause _ => if cause.isStructural then .structural else .lexical
  | shape _ => .semantic
  | access _ => .contract
  | source _ => .io

/-- The place in the input, where the fault has one. -/
def place? : Fault → Option Place
  | malformed _ place => some place
  | _ => none

/-- How far from the start of the input. -/
def offset? (fault : Fault) : Option Nat := fault.place?.map Place.offset

/-- What stands there. -/
def excerpt? (fault : Fault) : Option String := fault.place?.map Place.excerpt

/-- Does the fault come from reading tokens and groups? -/
def isMalformed (fault : Fault) : Bool := fault.place?.isSome

/-- The source's own error, if that is what the fault is. -/
def sourceError? : Fault → Option SourceError
  | source error => some error
  | _ => none

/-- **The wording of a fault.** -/
def message : Fault → String
  | malformed cause place =>
    cause.phrase ++ " at offset " ++ place.offset.repr ++ " (" ++ place.excerpt ++ ")"
  | shape fault => fault.phrase
  | access fault => fault.phrase
  | source error => "I/O error: " ++ error.message

end Fault

end TableDump
