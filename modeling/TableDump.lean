import TableDump.Binary64.Basic
import TableDump.Binary64.Shortest
import TableDump.Bytes
import TableDump.Catalog
import TableDump.Cursor.InMemory
import TableDump.Cursor.Streaming
import TableDump.Decimal
import TableDump.Fault
import TableDump.Index
import TableDump.Keyword
import TableDump.Proofs.Accounts
import TableDump.Proofs.Blanks
import TableDump.Proofs.Boundaries
import TableDump.Proofs.BoundedWindow
import TableDump.Proofs.Buffering
import TableDump.Proofs.Calls
import TableDump.Proofs.Characters
import TableDump.Proofs.ColumnSources
import TableDump.Proofs.Contract
import TableDump.Proofs.Counting
import TableDump.Proofs.Course
import TableDump.Proofs.Decimal
import TableDump.Proofs.DecimalTexts
import TableDump.Proofs.Defects
import TableDump.Proofs.Definitions
import TableDump.Proofs.Delivery
import TableDump.Proofs.Diagnosis
import TableDump.Proofs.Displacement
import TableDump.Proofs.Effects
import TableDump.Proofs.Endings
import TableDump.Proofs.Events
import TableDump.Proofs.Excerpts
import TableDump.Proofs.FailedStatements
import TableDump.Proofs.FailingSource
import TableDump.Proofs.Failures
import TableDump.Proofs.Following
import TableDump.Proofs.Footing
import TableDump.Proofs.Forward
import TableDump.Proofs.Headway
import TableDump.Proofs.Grammar
import TableDump.Proofs.Handles
import TableDump.Proofs.InMemory
import TableDump.Proofs.Independence
import TableDump.Proofs.Insertion
import TableDump.Proofs.Keys
import TableDump.Proofs.Lexemes
import TableDump.Proofs.Lookahead
import TableDump.Proofs.LowerCase
import TableDump.Proofs.Nearest
import TableDump.Proofs.Nesting
import TableDump.Proofs.Numerals
import TableDump.Proofs.Outlook
import TableDump.Proofs.Pieces
import TableDump.Proofs.PlainNames
import TableDump.Proofs.Progress
import TableDump.Proofs.Questions
import TableDump.Proofs.Ranges
import TableDump.Proofs.Reach
import TableDump.Proofs.Recognition
import TableDump.Proofs.Requests
import TableDump.Proofs.Resumption
import TableDump.Proofs.RoundTrip
import TableDump.Proofs.RowTexts
import TableDump.Proofs.SameReading
import TableDump.Proofs.Scan
import TableDump.Proofs.Schemas
import TableDump.Proofs.Search
import TableDump.Proofs.Separation
import TableDump.Proofs.Source
import TableDump.Proofs.Spans
import TableDump.Proofs.Spelling
import TableDump.Proofs.Statements
import TableDump.Proofs.Streaming
import TableDump.Proofs.Tuples
import TableDump.Proofs.Unambiguity
import TableDump.Proofs.Unquoting
import TableDump.Proofs.Unselected
import TableDump.Proofs.Utf8
import TableDump.Proofs.WellFormed
import TableDump.Proofs.Window
import TableDump.Row.Basic
import TableDump.Row.Json
import TableDump.Row.JsonReader
import TableDump.Scan
import TableDump.Session
import TableDump.Settings
import TableDump.Source
import TableDump.Statement.Command
import TableDump.Statement.CreateTable
import TableDump.Statement.Insert
import TableDump.Statement.Reader
import TableDump.Text.LetterCase
import TableDump.Text.LowerCase
import TableDump.Text.Utf8
import TableDump.Token.Basic
import TableDump.Token.Render
import TableDump.Token.Scan
import TableDump.Window
