/-!
# The reserved words

A word of a dump is a keyword or a name, and which of them it is depends on
this list alone: the verbs of SQL, its other reserved words, and the types that
a dump declares columns with. Case does not matter, so a keyword has one
spelling, in upper case, and is looked up by the upper case of a word.

Only the case of ASCII letters is folded; a word with any other letter is no
keyword.
-/

namespace TableDump

/-- A reserved word. -/
inductive Keyword where
  | ABORT | ALL | ALLOCATE | ALTER | ANALYSE | ANALYZE | AND | ANY | AS | ASC | AUTO_INCREMENT
  | BETWEEN | BIGINT | BINARY | BIT | BLOB | BOTH | CASE | CAST | CHAR | CHARACTER | CHECK
  | CLUSTER | COALESCE | COLLATE | COLLATION | COLUMN | CONSTRAINT | COPY | CREATE | CROSS
  | CURRENT | CURRENT_CATALOG | CURRENT_DATE | CURRENT_DB | CURRENT_SCHEMA | CURRENT_SID
  | CURRENT_TIME | CURRENT_TIMESTAMP | CURRENT_USER | CURRENT_USERID | CURRENT_USEROID | DATE
  | DATETIME | DEALLOCATE | DEC | DECIMAL | DECODE | DEFAULT | DELETE | DESC | DISTINCT
  | DISTRIBUTE | DO | DOUBLE | DROP | ELSE | END | ENUM | EXCEPT | EXCLUDE | EXISTS | EXPLAIN
  | EXPRESS | EXTEND | EXTERNAL | EXTRACT | FALSE | FIRST | FLOAT | FOLLOWING | FOR | FOREIGN
  | FROM | FULL | FUNCTION | GENSTATS | GLOBAL | GROUP | GROUP_BY | HAVING | IDENTIFIER_CASE
  | ILIKE | IN | INDEX | INITIALLY | INNER | INNER_JOIN | INOUT | INSERT | INT | INTEGER
  | INTERSECT | INTERVAL | INTO | JOIN | KEY | LEADING | LEFT | LEFT_JOIN | LIKE | LIMIT | LOAD
  | LOCAL | LOCK | LONGBLOB | LONGTEXT | MEDIUMBLOB | MEDIUMINT | MEDIUMTEXT | MINUS | MOVE
  | NATURAL | NCHAR | NEW | NOT | NOTNULL | NULL | NULLS | NUMERIC | NVL | OFF | OFFSET | OLD
  | ON | ONLINE | ONLY | OR | ORDER | OTHERS | OUT | OUTER | OUTER_JOIN | OVER | OVERLAPS
  | PARTITION | POSITION | PRECEDING | PRECISION | PRESERVE | PRIMARY | REAL | RESET | REUSE
  | RIGHT | RIGHT_JOIN | ROWS | SELECT | SESSION_USER | SET | SETOF | SHOW | SMALLINT | SOME
  | TABLE | TEXT | THEN | TIES | TIME | TIMESTAMP | TINYBLOB | TINYINT | TINYTEXT | TO
  | TRAILING | TRANSACTION | TRIGGER | TRIM | TRUE | UNBOUNDED | UNION | UNIQUE | UPDATE | USER
  | USING | VACUUM | VALUES | VARBINARY | VARCHAR | VERBOSE | VERSION | VIEW | WHEN | WHERE
  | WITH | WRITE | YEAR
  deriving DecidableEq

namespace Keyword

/-- How a keyword is written. -/
def spelling : Keyword → String
  | ABORT => "ABORT"
  | ALL => "ALL"
  | ALLOCATE => "ALLOCATE"
  | ALTER => "ALTER"
  | ANALYSE => "ANALYSE"
  | ANALYZE => "ANALYZE"
  | AND => "AND"
  | ANY => "ANY"
  | AS => "AS"
  | ASC => "ASC"
  | AUTO_INCREMENT => "AUTO_INCREMENT"
  | BETWEEN => "BETWEEN"
  | BIGINT => "BIGINT"
  | BINARY => "BINARY"
  | BIT => "BIT"
  | BLOB => "BLOB"
  | BOTH => "BOTH"
  | CASE => "CASE"
  | CAST => "CAST"
  | CHAR => "CHAR"
  | CHARACTER => "CHARACTER"
  | CHECK => "CHECK"
  | CLUSTER => "CLUSTER"
  | COALESCE => "COALESCE"
  | COLLATE => "COLLATE"
  | COLLATION => "COLLATION"
  | COLUMN => "COLUMN"
  | CONSTRAINT => "CONSTRAINT"
  | COPY => "COPY"
  | CREATE => "CREATE"
  | CROSS => "CROSS"
  | CURRENT => "CURRENT"
  | CURRENT_CATALOG => "CURRENT_CATALOG"
  | CURRENT_DATE => "CURRENT_DATE"
  | CURRENT_DB => "CURRENT_DB"
  | CURRENT_SCHEMA => "CURRENT_SCHEMA"
  | CURRENT_SID => "CURRENT_SID"
  | CURRENT_TIME => "CURRENT_TIME"
  | CURRENT_TIMESTAMP => "CURRENT_TIMESTAMP"
  | CURRENT_USER => "CURRENT_USER"
  | CURRENT_USERID => "CURRENT_USERID"
  | CURRENT_USEROID => "CURRENT_USEROID"
  | DATE => "DATE"
  | DATETIME => "DATETIME"
  | DEALLOCATE => "DEALLOCATE"
  | DEC => "DEC"
  | DECIMAL => "DECIMAL"
  | DECODE => "DECODE"
  | DEFAULT => "DEFAULT"
  | DELETE => "DELETE"
  | DESC => "DESC"
  | DISTINCT => "DISTINCT"
  | DISTRIBUTE => "DISTRIBUTE"
  | DO => "DO"
  | DOUBLE => "DOUBLE"
  | DROP => "DROP"
  | ELSE => "ELSE"
  | END => "END"
  | ENUM => "ENUM"
  | EXCEPT => "EXCEPT"
  | EXCLUDE => "EXCLUDE"
  | EXISTS => "EXISTS"
  | EXPLAIN => "EXPLAIN"
  | EXPRESS => "EXPRESS"
  | EXTEND => "EXTEND"
  | EXTERNAL => "EXTERNAL"
  | EXTRACT => "EXTRACT"
  | FALSE => "FALSE"
  | FIRST => "FIRST"
  | FLOAT => "FLOAT"
  | FOLLOWING => "FOLLOWING"
  | FOR => "FOR"
  | FOREIGN => "FOREIGN"
  | FROM => "FROM"
  | FULL => "FULL"
  | FUNCTION => "FUNCTION"
  | GENSTATS => "GENSTATS"
  | GLOBAL => "GLOBAL"
  | GROUP => "GROUP"
  | GROUP_BY => "GROUP_BY"
  | HAVING => "HAVING"
  | IDENTIFIER_CASE => "IDENTIFIER_CASE"
  | ILIKE => "ILIKE"
  | IN => "IN"
  | INDEX => "INDEX"
  | INITIALLY => "INITIALLY"
  | INNER => "INNER"
  | INNER_JOIN => "INNER_JOIN"
  | INOUT => "INOUT"
  | INSERT => "INSERT"
  | INT => "INT"
  | INTEGER => "INTEGER"
  | INTERSECT => "INTERSECT"
  | INTERVAL => "INTERVAL"
  | INTO => "INTO"
  | JOIN => "JOIN"
  | KEY => "KEY"
  | LEADING => "LEADING"
  | LEFT => "LEFT"
  | LEFT_JOIN => "LEFT_JOIN"
  | LIKE => "LIKE"
  | LIMIT => "LIMIT"
  | LOAD => "LOAD"
  | LOCAL => "LOCAL"
  | LOCK => "LOCK"
  | LONGBLOB => "LONGBLOB"
  | LONGTEXT => "LONGTEXT"
  | MEDIUMBLOB => "MEDIUMBLOB"
  | MEDIUMINT => "MEDIUMINT"
  | MEDIUMTEXT => "MEDIUMTEXT"
  | MINUS => "MINUS"
  | MOVE => "MOVE"
  | NATURAL => "NATURAL"
  | NCHAR => "NCHAR"
  | NEW => "NEW"
  | NOT => "NOT"
  | NOTNULL => "NOTNULL"
  | NULL => "NULL"
  | NULLS => "NULLS"
  | NUMERIC => "NUMERIC"
  | NVL => "NVL"
  | OFF => "OFF"
  | OFFSET => "OFFSET"
  | OLD => "OLD"
  | ON => "ON"
  | ONLINE => "ONLINE"
  | ONLY => "ONLY"
  | OR => "OR"
  | ORDER => "ORDER"
  | OTHERS => "OTHERS"
  | OUT => "OUT"
  | OUTER => "OUTER"
  | OUTER_JOIN => "OUTER_JOIN"
  | OVER => "OVER"
  | OVERLAPS => "OVERLAPS"
  | PARTITION => "PARTITION"
  | POSITION => "POSITION"
  | PRECEDING => "PRECEDING"
  | PRECISION => "PRECISION"
  | PRESERVE => "PRESERVE"
  | PRIMARY => "PRIMARY"
  | REAL => "REAL"
  | RESET => "RESET"
  | REUSE => "REUSE"
  | RIGHT => "RIGHT"
  | RIGHT_JOIN => "RIGHT_JOIN"
  | ROWS => "ROWS"
  | SELECT => "SELECT"
  | SESSION_USER => "SESSION_USER"
  | SET => "SET"
  | SETOF => "SETOF"
  | SHOW => "SHOW"
  | SMALLINT => "SMALLINT"
  | SOME => "SOME"
  | TABLE => "TABLE"
  | TEXT => "TEXT"
  | THEN => "THEN"
  | TIES => "TIES"
  | TIME => "TIME"
  | TIMESTAMP => "TIMESTAMP"
  | TINYBLOB => "TINYBLOB"
  | TINYINT => "TINYINT"
  | TINYTEXT => "TINYTEXT"
  | TO => "TO"
  | TRAILING => "TRAILING"
  | TRANSACTION => "TRANSACTION"
  | TRIGGER => "TRIGGER"
  | TRIM => "TRIM"
  | TRUE => "TRUE"
  | UNBOUNDED => "UNBOUNDED"
  | UNION => "UNION"
  | UNIQUE => "UNIQUE"
  | UPDATE => "UPDATE"
  | USER => "USER"
  | USING => "USING"
  | VACUUM => "VACUUM"
  | VALUES => "VALUES"
  | VARBINARY => "VARBINARY"
  | VARCHAR => "VARCHAR"
  | VERBOSE => "VERBOSE"
  | VERSION => "VERSION"
  | VIEW => "VIEW"
  | WHEN => "WHEN"
  | WHERE => "WHERE"
  | WITH => "WITH"
  | WRITE => "WRITE"
  | YEAR => "YEAR"

/-- All keywords, in the order of their spellings. -/
def all : List Keyword :=
  [.ABORT, .ALL, .ALLOCATE, .ALTER, .ANALYSE, .ANALYZE, .AND, .ANY, .AS, .ASC, .AUTO_INCREMENT,
    .BETWEEN, .BIGINT, .BINARY, .BIT, .BLOB, .BOTH, .CASE, .CAST, .CHAR, .CHARACTER, .CHECK,
    .CLUSTER, .COALESCE, .COLLATE, .COLLATION, .COLUMN, .CONSTRAINT, .COPY, .CREATE, .CROSS,
    .CURRENT, .CURRENT_CATALOG, .CURRENT_DATE, .CURRENT_DB, .CURRENT_SCHEMA, .CURRENT_SID,
    .CURRENT_TIME, .CURRENT_TIMESTAMP, .CURRENT_USER, .CURRENT_USERID, .CURRENT_USEROID, .DATE,
    .DATETIME, .DEALLOCATE, .DEC, .DECIMAL, .DECODE, .DEFAULT, .DELETE, .DESC, .DISTINCT,
    .DISTRIBUTE, .DO, .DOUBLE, .DROP, .ELSE, .END, .ENUM, .EXCEPT, .EXCLUDE, .EXISTS, .EXPLAIN,
    .EXPRESS, .EXTEND, .EXTERNAL, .EXTRACT, .FALSE, .FIRST, .FLOAT, .FOLLOWING, .FOR, .FOREIGN,
    .FROM, .FULL, .FUNCTION, .GENSTATS, .GLOBAL, .GROUP, .GROUP_BY, .HAVING, .IDENTIFIER_CASE,
    .ILIKE, .IN, .INDEX, .INITIALLY, .INNER, .INNER_JOIN, .INOUT, .INSERT, .INT, .INTEGER,
    .INTERSECT, .INTERVAL, .INTO, .JOIN, .KEY, .LEADING, .LEFT, .LEFT_JOIN, .LIKE, .LIMIT,
    .LOAD, .LOCAL, .LOCK, .LONGBLOB, .LONGTEXT, .MEDIUMBLOB, .MEDIUMINT, .MEDIUMTEXT, .MINUS,
    .MOVE, .NATURAL, .NCHAR, .NEW, .NOT, .NOTNULL, .NULL, .NULLS, .NUMERIC, .NVL, .OFF, .OFFSET,
    .OLD, .ON, .ONLINE, .ONLY, .OR, .ORDER, .OTHERS, .OUT, .OUTER, .OUTER_JOIN, .OVER,
    .OVERLAPS, .PARTITION, .POSITION, .PRECEDING, .PRECISION, .PRESERVE, .PRIMARY, .REAL,
    .RESET, .REUSE, .RIGHT, .RIGHT_JOIN, .ROWS, .SELECT, .SESSION_USER, .SET, .SETOF, .SHOW,
    .SMALLINT, .SOME, .TABLE, .TEXT, .THEN, .TIES, .TIME, .TIMESTAMP, .TINYBLOB, .TINYINT,
    .TINYTEXT, .TO, .TRAILING, .TRANSACTION, .TRIGGER, .TRIM, .TRUE, .UNBOUNDED, .UNION,
    .UNIQUE, .UPDATE, .USER, .USING, .VACUUM, .VALUES, .VARBINARY, .VARCHAR, .VERBOSE, .VERSION,
    .VIEW, .WHEN, .WHERE, .WITH, .WRITE, .YEAR]

/-- A text with its ASCII letters in upper case. -/
def upperCase (text : String) : String := String.ofList (text.toList.map Char.toUpper)

/-- **The keyword that a word is**, in whatever case it is written. -/
def lookup (word : String) : Option Keyword :=
  let upper := upperCase word
  all.find? fun keyword => keyword.spelling == upper

/-- The place of a keyword among all of them. -/
def index (keyword : Keyword) : Nat := all.idxOf keyword

end Keyword

/-- Are two texts the same but for the case of ASCII letters? -/
def sameButCase (first second : String) : Bool :=
  Keyword.upperCase first == Keyword.upperCase second

end TableDump
