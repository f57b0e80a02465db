import TableDump.Catalog
import TableDump.Token.Basic

/-!
# Table definitions

Of a `CREATE TABLE` statement only the names of the columns are of interest.
The body of the statement is a list of entries separated by commas. An entry
that begins with a name declares a column of that name; any other entry – a
key, a constraint – begins with a keyword. Commas inside of groups separate
nothing here, since a group is one token.

A statement that is not of this form defines no table. That is no fault: dumps
create other things too.
-/

namespace TableDump

/-- A table and its columns, under the names that the statement has for
them. -/
structure TableDefinition where
  name : String
  fields : List String
  deriving DecidableEq

namespace TableDefinition

/-- The names that entries begin with. `atStart` tells whether the next token
begins an entry. -/
def entryNames (atStart : Bool) : List Token → List String
  | [] => []
  | token :: rest =>
    let names := entryNames (token == .delimiter .comma) rest
    match token.name? with
    | some name => if atStart then name :: names else names
    | none => names

/-- What follows `IF NOT EXISTS`, if that stands here. -/
def skipCondition : List Token → List Token
  | .identifier word :: .keyword .NOT :: .keyword .EXISTS :: rest =>
    if sameButCase word "IF" then rest
    else .identifier word :: .keyword .NOT :: .keyword .EXISTS :: rest
  | tokens => tokens

/-- **The table that a statement defines**, if it defines one that is
chosen. -/
def ofStatement? (statement : Statement) (selection : Selection) : Option TableDefinition :=
  match statement.tokens with
  | _ :: .keyword .TABLE :: rest =>
    match skipCondition rest with
    | .identifier name :: .group (.delimiter .leftParen :: body) :: _ =>
      if selection.contains name then some { name, fields := entryNames true body } else none
    | _ => none
  | _ => none

end TableDefinition

end TableDump
