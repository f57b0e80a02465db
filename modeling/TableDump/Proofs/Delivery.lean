import Mathlib
import TableDump.Proofs.Course
import TableDump.Proofs.Insertion
import TableDump.Proofs.RoundTrip

/-!
# Rows that are written are delivered

Rows can be written as one insertion that names its columns
(`Statement.insertion`). A session that works through the text of it delivers
these rows to its sink, and nothing else (`Session.extractText_insertion`).

Three laws meet here, and each of them is about the statement in between. Its
text is read as this statement, because its tokens are canonical
(`Canonical.of_mem_insertion`). It is an insertion of the rows by the grammar
(`isInsertion_insertion`), so it is carried out as one. And a session whose
reader has a single statement does what that statement says.
-/

namespace TableDump

open Grammar

/-! ## Writing rows -/

/-- The token that a value is written as. -/
def Cell.token : Cell → Token
  | null => .keyword .NULL
  | integer value => .integer value
  | real value => .real value
  | text value => .text value

/-- **A value that can be written**: numbers have no sign, and are finite. -/
def Cell.Writable : Cell → Prop
  | integer value => 0 ≤ value
  | real value => value.isNegative = false ∧ value.isFinite = true
  | null | text _ => True

instance : DecidablePred Cell.Writable
  | .integer value => inferInstanceAs (Decidable (0 ≤ value))
  | .real _ => inferInstanceAs (Decidable (_ ∧ _))
  | .null | .text _ => inferInstanceAs (Decidable True)

/-- Items with a comma between any two of them. -/
def Token.separated {α : Type} (write : α → Token) (items : List α) : List Token :=
  (items.map write).intersperse (.delimiter .comma)

/-- Such items in parentheses. -/
def Token.parenthesized {α : Type} (write : α → Token) (items : List α) : Token :=
  .group (.delimiter .leftParen :: (separated write items ++ [.delimiter .rightParen]))

/-- The tuple that a row is written as. -/
def Row.token (row : Row) : Token := .parenthesized Cell.token row.values

/-- **The insertion of some rows** into a table, with the names of the
columns. -/
def Statement.insertion (table : String) (columns : List String) (rows : List Row) :
    Statement where
  tokens := .keyword .INSERT :: .keyword .INTO :: .identifier table
    :: ([.parenthesized .identifier columns] ++ .keyword .VALUES :: Token.separated Row.token rows)

/-- **Rows that can be written** for a table: there are some, they have the same
columns, some distinct ones, and there is no backtick in a name. -/
structure Writable (table : String) (columns : List String) (rows : List Row) : Prop where
  name : backtick ∉ table.toList
  names : ∀ column ∈ columns, backtick ∉ column.toList
  columns_ne_nil : columns ≠ []
  distinct : columns.Nodup
  rows_ne_nil : rows ≠ []
  columns_eq : ∀ row ∈ rows, row.columns = columns
  values : ∀ row ∈ rows, ∀ value ∈ row.values, value.Writable

variable {α : Type}

/-! ## The statement is an insertion -/

namespace Grammar

/-- Items that are written with commas between them have commas between
them. -/
theorem CommaSeparated.of_separated {IsItem : Token → α → Prop} {write : α → Token}
    {items : List α} (ne_nil : items ≠ []) (h : ∀ item ∈ items, IsItem (write item) item) :
    CommaSeparated IsItem (Token.separated write items) items := by
  induction items with
  | nil => exact absurd rfl ne_nil
  | cons item items ih =>
    have here := h item List.mem_cons_self
    cases items with
    | nil => exact .last here
    | cons next items =>
      have others := ih (List.cons_ne_nil next items) fun other mem =>
        h other (List.mem_cons_of_mem item mem)
      exact .cons here others

theorem IsCell.of_token (value : Cell) : IsCell value.token value := by
  cases value <;> constructor

/-- A row is written as a tuple of it. -/
theorem IsTuple.of_token {columns : List String} {row : Row} (same : row.columns = columns)
    (ne_nil : columns ≠ []) : IsTuple (some columns) row.token row := by
  have values_ne_nil : row.values ≠ [] := by
    rintro none
    have cells : row.cells = [] := List.map_eq_nil_iff.1 none
    exact ne_nil (same ▸ List.map_eq_nil_iff.2 cells)
  have lengths : columns.length = row.values.length := by
    rw [← same, Row.columns, Row.values, List.length_map, List.length_map]
  have cells : row = { cells := columns.zip row.values } :=
    congrArg Row.mk (List.zip_of_prod same rfl)
  have listed : Parenthesized IsCell row.token row.values :=
    .intro (.of_separated values_ne_nil fun value _ => .of_token value)
  have named : IsRow (some columns) row.values { cells := columns.zip row.values } :=
    .named lengths
  rw [← cells] at named
  exact .intro listed named

/-- **What is written for some rows is the insertion of these rows.** -/
theorem isInsertion_insertion {table : String} {columns : List String} {rows : List Row}
    (writable : Writable table columns rows) {selection : Selection}
    (chosen : selection.contains table = true) (catalog : Catalog) :
    IsInsertion selection catalog (Statement.insertion table columns rows).tokens table rows := by
  have named : Parenthesized IsName (.parenthesized .identifier columns) columns :=
    .intro (.of_separated writable.columns_ne_nil fun column _ => .intro column)
  refine .intro chosen (.named named writable.distinct) ?_
  exact .of_separated writable.rows_ne_nil fun row mem =>
    .of_token (writable.columns_eq row mem) writable.columns_ne_nil

end Grammar

/-! ## Its text is read as it -/

/-- What stands in a list is one of the items, or a comma. -/
theorem Token.mem_separated {write : α → Token} {items : List α} {token : Token}
    (h : token ∈ separated write items) :
    token = .delimiter .comma ∨ ∃ item ∈ items, token = write item := by
  unfold separated at h
  induction items with
  | nil => exact absurd h List.not_mem_nil
  | cons item items ih =>
    cases items with
    | nil => exact .inr ⟨item, List.mem_cons_self, List.mem_singleton.1 h⟩
    | cons next items =>
      rw [List.map_cons, List.map_cons, List.intersperse_cons_cons, ← List.map_cons] at h
      rcases List.mem_cons.1 h with rfl | h
      · exact .inr ⟨item, List.mem_cons_self, rfl⟩
      · rcases List.mem_cons.1 h with rfl | h
        · exact .inl rfl
        · exact (ih h).imp_right fun ⟨other, mem, same⟩ =>
            ⟨other, List.mem_cons_of_mem item mem, same⟩

namespace Canonical

variable {room : Nat}

theorem of_mem_separated {write : α → Token} {items : List α}
    (h : ∀ item ∈ items, Canonical room (write item)) :
    ∀ token ∈ Token.separated write items, Canonical room token := by
  intro token mem
  rcases Token.mem_separated mem with rfl | ⟨item, mem', rfl⟩
  · exact .simple (.mark (by decide))
  · exact h item mem'

theorem parenthesized {write : α → Token} {items : List α}
    (h : ∀ item ∈ items, Canonical room (write item)) :
    Canonical (room + 1) (.parenthesized write items) :=
  .group (.of_mem_separated h)

theorem of_writable {value : Cell} (h : value.Writable) : Canonical room value.token := by
  cases value with
  | null => exact .simple (.keyword .NULL)
  | integer value => exact .simple (.integer h)
  | real value => exact .simple (.real h.1 h.2)
  | text value => exact .simple (.text value)

/-- **The tokens that are written for some rows can be read again**, if groups
are allowed at all. -/
theorem of_mem_insertion {table : String} {columns : List String} {rows : List Row}
    (writable : Writable table columns rows) :
    ∀ token ∈ (Statement.insertion table columns rows).tokens, Canonical (room + 1) token := by
  have names : Canonical (room + 1) (.parenthesized .identifier columns) :=
    .parenthesized fun column mem => .simple (.identifier (writable.names column mem))
  have tuples : ∀ token ∈ Token.separated Row.token rows, Canonical (room + 1) token :=
    .of_mem_separated fun row mem => .parenthesized fun value mem' =>
      .of_writable (writable.values row mem value mem')
  simp only [Statement.insertion, List.mem_cons, List.singleton_append, forall_eq_or_imp]
  exact ⟨.simple (.keyword _), .simple (.keyword _), .simple (.identifier writable.name), names,
    .simple (.keyword _), tuples⟩

end Canonical

/-- **A dump of a single statement**, with a semicolon behind it. -/
theorem Grammar.Dump.of_canonical {maxDepth : Nat} {statement : Statement}
    (h : ∀ token ∈ statement.tokens, Canonical maxDepth token) :
    Dump maxDepth [statement] (bytesOf (statement.render ++ ";")).toList := by
  have alone := Dump.intro .nil (.cons (.of_canonical h []) .nil .nil)
  rw [List.append_nil, List.append_nil, List.nil_append] at alone
  rw [Utf8.toList_bytesOf, String.toList_append, Utf8.encode_append]
  exact alone

/-! ## It is carried out -/

/-- A sink that keeps everything has the rows then, behind those before. -/
theorem Sink.takeRows_collecting (table : String) (rows : List Row) (state : Collected) :
    collecting.takeRows table rows state
      = (.ok (), { state with rows := state.rows ++ (rows.map fun row => (table, row)).toArray })
    := by
  induction rows generalizing state with
  | nil => simp [takeRows]
  | cons row rows ih =>
    rw [takeRows]
    show collecting.takeRows table rows _ = _
    rw [ih]
    simp

namespace Session

/-- **An insertion is handled** by handing over its rows. -/
theorem handle_insertion {table : String} {columns : List String} {rows : List Row}
    (writable : Writable table columns rows) (session : Session Collected)
    (chosen : session.selection.contains table = true) :
    session.handle .collecting (Statement.insertion table columns rows)
      = (.ok (), { session with
          tally := { session.tally with
            statements := session.tally.statements + 1
            rows := session.tally.rows + rows.length }
          sinkState := { session.sinkState with
            rows := session.sinkState.rows ++ (rows.map fun row => (table, row)).toArray } }) := by
  have insert : (Statement.insertion table columns rows).command = .insert := rfl
  have read := Insertion.ofStatement_of_isInsertion
    (isInsertion_insertion writable chosen session.catalog)
  unfold handle carryOut
  rw [insert]
  dsimp only
  unfold insertRows Sink.takeInsertion
  dsimp only
  rw [read]
  dsimp only
  rw [Sink.takeRows_collecting]

/-- **Rows that are written are delivered**, in order and for the table under
whose name they are written. Nothing else is, and they are all that a session
has seen. -/
theorem extractText_insertion {table : String} {columns : List String} {rows : List Row}
    (writable : Writable table columns rows) {selection : Selection}
    (chosen : selection.contains table = true) {settings : Settings}
    (depth : 1 ≤ settings.maxDepth) :
    extractText .collecting ((Statement.insertion table columns rows).render ++ ";")
        { selection, settings, sinkState := {} }
      = (.ok { statements := 1, schemas := 0, rows := rows.length, skipped := 0 },
        { selection, settings,
          tally := { statements := 1, schemas := 0, rows := rows.length, skipped := 0 }
          sinkState :=
            { tables := #[], rows := (rows.map fun row => (table, row)).toArray } }) := by
  obtain ⟨room, deep⟩ := Nat.exists_eq_add_of_le' depth
  have dump : Dump settings.maxDepth [Statement.insertion table columns rows] _ :=
    .of_canonical (deep ▸ Canonical.of_mem_insertion writable)
  have course := Reader.course_of_dump [] 0 dump
  have extracted := course.extract_eq (by rw [InMemory.left_between]; exact course.length_le)
    .collecting { selection, settings, sinkState := ({} : Collected) }
  have handled := handle_insertion writable
    { selection, settings, sinkState := ({} : Collected) } chosen
  rw [handOver, handled] at extracted
  refine extracted.trans ?_
  simp [handOver, concluded]

/-- Two rows with values of all kinds, in a table with an odd name. -/
def oddRows : List Row :=
  [{ cells := [("id", .integer 7), ("select", .text "it's; --")] },
    { cells := [("id", .null), ("select", .real ⟨0x3FF8000000000000⟩)] }]

/-- These rows. -/
theorem extractText_oddRows :
    Writable "odd;--name" ["id", "select"] oddRows
      ∧ Selection.all.contains "odd;--name" = true
      ∧ extractText .collecting
          ((Statement.insertion "odd;--name" ["id", "select"] oddRows).render ++ ";")
          { selection := .all, settings := { maxDepth := 1 }, sinkState := {} }
        = (.ok { statements := 1, schemas := 0, rows := 2, skipped := 0 },
          { selection := .all, settings := { maxDepth := 1 },
            tally := { statements := 1, schemas := 0, rows := 2, skipped := 0 }
            sinkState :=
              { tables := #[]
                rows := #[
                  ("odd;--name",
                    { cells := [("id", .integer 7), ("select", .text "it's; --")] }),
                  ("odd;--name",
                    { cells := [("id", .null), ("select", .real ⟨0x3FF8000000000000⟩)] })] } })
      := by
  have writable : Writable "odd;--name" ["id", "select"] oddRows :=
    ⟨by decide, by decide, by decide, by decide, by decide, by decide, by decide⟩
  exact ⟨writable, rfl, extractText_insertion writable rfl le_rfl⟩

end Session

end TableDump
