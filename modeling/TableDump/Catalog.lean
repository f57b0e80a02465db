import TableDump.Text.LowerCase

/-!
# What is known of the tables

A catalog remembers the columns of tables from their definitions. Tables are
the same when their names are, whatever the case of the letters, so everything
goes by the name in lower case. A later definition replaces an earlier one
completely.

A selection is a choice of tables, and here names are compared as they are
written.
-/

namespace TableDump

/-- A choice of tables. -/
inductive Selection where
  /-- All tables. -/
  | all
  /-- The tables with these names. -/
  | only (tables : List String)

/-- Is a table chosen? -/
def Selection.contains : Selection → String → Bool
  | all, _ => true
  | only tables, table => tables.contains table

/-- The columns of tables, by the names of the tables in lower case. Each name
stands there once. -/
structure Catalog where
  tables : List (String × List String) := []
  deriving DecidableEq

namespace Catalog

/-- The columns of a table, if they are known. -/
def fields? (catalog : Catalog) (table : String) : Option (List String) :=
  catalog.tables.lookup (lowerCase table)

/-- The catalog without a table. -/
def forget (catalog : Catalog) (table : String) : Catalog :=
  { tables := catalog.tables.filter fun known => known.1 != lowerCase table }

/-- The catalog with new columns for a table. -/
def define (catalog : Catalog) (table : String) (fields : List String) : Catalog :=
  { tables := (lowerCase table, fields) :: (catalog.forget table).tables }

/-- How many tables are known. -/
def size (catalog : Catalog) : Nat := catalog.tables.length

/-- The known tables, in the order of their names. -/
def sorted (catalog : Catalog) : List (String × List String) :=
  catalog.tables.mergeSort fun first second => first.1 ≤ second.1

end Catalog

end TableDump
