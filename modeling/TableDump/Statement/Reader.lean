import TableDump.Cursor.InMemory
import TableDump.Cursor.Streaming
import TableDump.Token.Render
import TableDump.Token.Scan

/-!
# One statement after the other

A reader hands out the statements of a dump one by one. It is finished when the
input has ended or could not be read on: from then on it hands out nothing and
leaves its cursor alone. There is no going on behind a fault, since where the
next statement begins is known only from the end of the last one.

Handing statements to somebody who may refuse them (`Reader.drive`) is
different: a refusal stops the handing out and not the reader, which can go on
with the statement after the refused one.
-/

namespace TableDump

/-- A cursor from which statements are read. -/
structure Reader (κ : Type) where
  /-- Where the next statement is looked for. -/
  cursor : κ
  /-- How statements are read. -/
  settings : Settings := {}
  /-- How many statements have been read. -/
  statements : Nat := 0
  /-- Has the end come, or a fault? -/
  finished : Bool := false

namespace Reader

variable {κ σ ε : Type}

/-- A reader of bytes in memory. -/
def ofBytes (bytes : Array UInt8) (settings : Settings := {}) : Reader InMemory :=
  { cursor := { bytes }, settings }

/-- A reader of a source. -/
def ofSource (source : Source) (settings : Settings := {}) : Reader Streaming :=
  { cursor := Streaming.ofSource source settings.sizing, settings }

variable [Cursor κ]

/-- How far the reader is from the start of the input. -/
def position (reader : Reader κ) : Nat := Cursor.position reader.cursor

/-- **The next statement**, if any. -/
def next (reader : Reader κ) : Except Fault (Option Statement) × Reader κ :=
  if reader.finished then (.ok none, reader)
  else
    match reader.settings.scanStatement.run reader.cursor with
    | (.ok (some statement), cursor) =>
      (.ok (some statement), { reader with cursor, statements := reader.statements + 1 })
    | (outcome, cursor) => (outcome, { reader with cursor, finished := true })

/-- The next statement as an item of a list. There is nothing behind the last
item, and a fault is the last one. -/
def item? (reader : Reader κ) : Option (Except Fault Statement) × Reader κ :=
  match reader.next with
  | (.error fault, reader) => (some (.error fault), reader)
  | (.ok none, reader) => (none, reader)
  | (.ok (some statement), reader) => (some (.ok statement), reader)

/-- Hands at most `fuel` statements to `handle`, `count` having been handed out
before. -/
def driveWithin (handle : Statement → σ → Except ε Unit × σ) (ofFault : Fault → ε) :
    (fuel count : Nat) → Reader κ → σ → Except ε Nat × Reader κ × σ
  | 0, count, reader, state => (.ok count, reader, state)
  | fuel + 1, count, reader, state =>
    match reader.next with
    | (.error fault, reader) => (.error (ofFault fault), reader, state)
    | (.ok none, reader) => (.ok count, reader, state)
    | (.ok (some statement), reader) =>
      match handle statement state with
      | (.error refusal, state) => (.error refusal, reader, state)
      | (.ok (), state) => driveWithin handle ofFault fuel (count + 1) reader state

/-- **Hands all further statements to `handle`**, which works on a state of its
own, until it refuses one or reading fails. Gives the number of statements
handed out. Every statement takes at least one byte, so there are no more of
them than bytes. -/
def drive (handle : Statement → σ → Except ε Unit × σ) (ofFault : Fault → ε)
    (reader : Reader κ) (state : σ) : Except ε Nat × Reader κ × σ :=
  driveWithin handle ofFault (Cursor.left reader.cursor + 1) 0 reader state

/-- Reads at most `fuel` statements behind those in `before`, which are in
reverse order. -/
def collectWithin : (fuel : Nat) → (before : List Statement) → Reader κ →
    Except Fault (List Statement)
  | 0, before, _ => .ok before.reverse
  | fuel + 1, before, reader =>
    match reader.next with
    | (.error fault, _) => .error fault
    | (.ok none, _) => .ok before.reverse
    | (.ok (some statement), reader) => collectWithin fuel (statement :: before) reader

/-- All further statements. -/
def collect (reader : Reader κ) : Except Fault (List Statement) :=
  collectWithin (Cursor.left reader.cursor + 1) [] reader

end Reader

/-- The statements of a text. -/
def statementsOf (text : String) : Except Fault (List Statement) :=
  (Reader.ofBytes (bytesOf text)).collect

/-- The statements of a source. -/
def statementsFrom (source : Source) : Except Fault (List Statement) :=
  (Reader.ofSource source).collect

end TableDump
