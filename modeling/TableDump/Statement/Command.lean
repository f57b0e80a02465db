import TableDump.Token.Render

/-!
# What a statement is about

Only two kinds of statements matter, and the first token tells which it is, by
what it says and not by what kind of token it is: a quoted name will do.
-/

namespace TableDump

/-- The kinds of statements. -/
inductive Command where
  | create
  | insert
  /-- Any other statement, and the empty one. -/
  | other
  deriving DecidableEq, Repr

/-- The kind of a statement. -/
def Statement.command (statement : Statement) : Command :=
  match statement.command? with
  | some word =>
    if sameButCase word "CREATE" then .create
    else if sameButCase word "INSERT" then .insert
    else .other
  | none => .other

end TableDump
