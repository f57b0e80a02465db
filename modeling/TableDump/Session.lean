import TableDump.Statement.Command
import TableDump.Statement.CreateTable
import TableDump.Statement.Insert
import TableDump.Statement.Reader

/-!
# Extracting tables from dumps

A session works through the statements of one dump after the other and hands
what it finds to a sink: the columns of a table when it is created, and every
row that is inserted. It learns the columns of tables as it goes, so that a
dump of definitions can be followed by a dump of rows.

A sink may refuse what it is handed. Then the statement is not carried out any
further, and the sink's own error is what the session reports; what the session
itself finds wrong is made into an error of the sink's kind. Either way the
session can be used again: a statement that failed has changed nothing but the
number of statements seen – the rows accepted before it failed are with the
sink, but do not count.
-/

namespace TableDump

/-! ## Sinks -/

/-- Somebody who takes tables and rows, with a state `σ` and errors `ε`. -/
structure Sink (σ ε : Type) where
  /-- A fault of the session as an error of the sink. -/
  ofFault : Fault → ε
  /-- A table is created. Its name is in lower case. -/
  onTable : (table : String) → (fields : List String) → σ → Except ε Unit × σ
  /-- A row is inserted. The name of the table is as the statement has it. -/
  onRow : (table : String) → (row : Row) → σ → Except ε Unit × σ

/-- The events of a session, in the order in which they came. -/
structure Collected where
  /-- The tables that were created, with their columns. -/
  tables : Array (String × List String) := #[]
  /-- The rows that were inserted, with their tables. -/
  rows : Array (String × Row) := #[]
  deriving DecidableEq

namespace Collected

/-- The rows of one table, by its name as written. -/
def rowsFor (collected : Collected) (table : String) : List Row :=
  (collected.rows.toList.filter fun entry => entry.1 == table).map Prod.snd

end Collected

namespace Sink

variable {σ ε : Type}

/-- A sink that keeps everything and refuses nothing. -/
def collecting : Sink Collected Fault where
  ofFault := id
  onTable table fields state :=
    (.ok (), { state with tables := state.tables.push (table, fields) })
  onRow table row state := (.ok (), { state with rows := state.rows.push (table, row) })

/-- A sink for rows alone. -/
def ofRows (ofFault : Fault → ε) (onRow : String → Row → σ → Except ε Unit × σ) : Sink σ ε where
  ofFault
  onTable _ _ state := (.ok (), state)
  onRow

/-- Hands over rows, one after the other, until one is refused. -/
def takeRows (sink : Sink σ ε) (table : String) : List Row → σ → Except ε Unit × σ
  | [], state => (.ok (), state)
  | row :: rows, state =>
    match sink.onRow table row state with
    | (.error refusal, state) => (.error refusal, state)
    | (.ok (), state) => sink.takeRows table rows state

/-- **What an `INSERT` statement says**: the sink is handed the rows, and told
what is wrong behind them. Gives the number of rows, if the table is chosen. -/
def takeInsertion (sink : Sink σ ε) (statement : Statement) (selection : Selection)
    (catalog : Catalog) (state : σ) : Except ε (Option Nat) × σ :=
  match Insertion.ofStatement statement selection catalog with
  | .error fault => (.error (sink.ofFault (.shape fault)), state)
  | .ok none => (.ok none, state)
  | .ok (some insertion) =>
    match sink.takeRows insertion.table insertion.rows state with
    | (.error refusal, state) => (.error refusal, state)
    | (.ok (), state) =>
      match insertion.defect? with
      | some fault => (.error (sink.ofFault (.shape fault)), state)
      | none => (.ok (some insertion.rows.length), state)

end Sink

/-! ## Sessions -/

/-- What a session has seen. -/
structure Tally where
  /-- Statements of any kind. -/
  statements : Nat := 0
  /-- Definitions with columns. -/
  schemas : Nat := 0
  /-- Rows of insertions that did not fail. -/
  rows : Nat := 0
  /-- Insertions into tables that are not chosen. -/
  skipped : Nat := 0
  deriving DecidableEq, Repr

/-- A session, with the state of its sink. -/
structure Session (σ : Type) where
  /-- The tables of interest. -/
  selection : Selection
  /-- How dumps are read. -/
  settings : Settings := {}
  /-- What is known of the tables. -/
  catalog : Catalog := {}
  /-- What has been seen. -/
  tally : Tally := {}
  /-- The state of the sink. -/
  sinkState : σ

namespace Session

variable {σ ε κ : Type}

/-- The definition of a table: first the sink is told, then the catalog. A
table without columns is one of which nothing is known. -/
def createTable (sink : Sink σ ε) (definition : TableDefinition) (session : Session σ) :
    Except ε Unit × Session σ :=
  let table := lowerCase definition.name
  match ensureDistinct table definition.fields with
  | .error fault => (.error (sink.ofFault (.shape fault)), session)
  | .ok () =>
    match sink.onTable table definition.fields session.sinkState with
    | (.error refusal, sinkState) => (.error refusal, { session with sinkState })
    | (.ok (), sinkState) =>
      if definition.fields.isEmpty then
        (.ok (), { session with sinkState, catalog := session.catalog.forget table })
      else
        (.ok (), { session with
          sinkState
          catalog := session.catalog.define table definition.fields
          tally := { session.tally with schemas := session.tally.schemas + 1 } })

/-- An insertion: what the sink takes is counted. -/
def insertRows (sink : Sink σ ε) (statement : Statement) (session : Session σ) :
    Except ε Unit × Session σ :=
  match sink.takeInsertion statement session.selection session.catalog session.sinkState with
  | (.error error, sinkState) => (.error error, { session with sinkState })
  | (.ok none, sinkState) =>
    (.ok (), { session with
      sinkState
      tally := { session.tally with skipped := session.tally.skipped + 1 } })
  | (.ok (some rows), sinkState) =>
    (.ok (), { session with
      sinkState
      tally := { session.tally with rows := session.tally.rows + rows } })

/-- What a statement says, once it is counted. -/
def carryOut (sink : Sink σ ε) (statement : Statement) (session : Session σ) :
    Except ε Unit × Session σ :=
  match statement.command with
  | .create =>
    match TableDefinition.ofStatement? statement session.selection with
    | none => (.ok (), session)
    | some definition => session.createTable sink definition
  | .insert => session.insertRows sink statement
  | .other => (.ok (), session)

/-- **Works through one statement.** -/
def handle (sink : Sink σ ε) (statement : Statement) (session : Session σ) :
    Except ε Unit × Session σ :=
  { session with
    tally := { session.tally with statements := session.tally.statements + 1 }
  }.carryOut sink statement

/-- **Works through the statements that a reader has to give**, until one fails
or cannot be read. Gives what the session has seen by then. -/
def extract [Cursor κ] (sink : Sink σ ε) (reader : Reader κ) (session : Session σ) :
    Except ε Tally × Session σ :=
  match reader.drive (handle sink) sink.ofFault session with
  | (.error error, _, session) => (.error error, session)
  | (.ok _, _, session) => (.ok session.tally, session)

/-- Works through a dump in memory. -/
def extractText (sink : Sink σ ε) (text : String) (session : Session σ) :
    Except ε Tally × Session σ :=
  session.extract sink (Reader.ofBytes (bytesOf text) session.settings)

/-- Works through a dump that comes from a source. -/
def extractSource (sink : Sink σ ε) (source : Source) (session : Session σ) :
    Except ε Tally × Session σ :=
  session.extract sink (Reader.ofSource source session.settings)

end Session

end TableDump
