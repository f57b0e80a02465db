import TableDump.Binary64.Shortest
import TableDump.Token.Basic

/-!
# The canonical text of tokens

Every token has one text, and tokens are separated by single blanks. The text
is made to be read again: a name is quoted unless it can stand bare, a real
always has a point, which an integer never has, and a quoted text escapes
exactly what would end it or what is written with an escape. So a text read
from the canonical text of a token is that token, for all tokens that reading
can produce.
-/

namespace TableDump

/-- The backtick, which encloses names. -/
def backtick : Char := '\x60'

/-- The single quote, which encloses texts. -/
def apostrophe : Char := '\x27'

namespace Binary64

/-- The digits of a number without its sign: all in their places, as few as
identify the number. -/
def plainDigits (number : Binary64) : List Char :=
  if number.magnitude = 0 then ['0'] else (shortest .up number.magnitude).positional false

/-- **The plain text of a number**: never an exponent, and no fraction where
none is needed. -/
def plain (number : Binary64) : List Char :=
  if infinity < number.magnitude then "NaN".toList
  else
    (if number.isNegative then ['-'] else []) ++
      if number.magnitude = infinity then "inf".toList else number.plainDigits

/-- The text of a number that is not to be taken for an integer. -/
def pointed (number : Binary64) : List Char :=
  let plain := number.plain
  if plain.contains '.' then plain else plain ++ ".0".toList

end Binary64

/-- The text of an integer. -/
def integerText (value : Int64) : String := value.toInt.repr

/-- Can a name stand bare, and be read as a name again? -/
def isPlainName (name : String) : Bool :=
  match (bytesOf name).toList with
  | [] => false
  | first :: rest => isLetter first && rest.all isWordByte && (Keyword.lookup name).isNone

namespace Token

/-- How a character is written inside a quoted text. -/
def escape (character : Char) : List Char :=
  if character = '\\' then ['\\', '\\']
  else if character = apostrophe then ['\\', apostrophe]
  else if character = '\n' then ['\\', 'n']
  else if character = '\r' then ['\\', 'r']
  else if character = '\t' then ['\\', 't']
  else if character = '\x08' then ['\\', 'b']
  else [character]

/-- A quoted text. -/
def quoted (text : String) : List Char :=
  apostrophe :: (text.toList.flatMap escape ++ [apostrophe])

/-- A name, quoted if need be. -/
def writtenName (name : String) : List Char :=
  if isPlainName name then name.toList else backtick :: (name.toList ++ [backtick])

/-- **The canonical text of a token**, as characters. -/
def chars : Token → List Char
  | identifier name => writtenName name
  | keyword word => word.spelling.toList
  | delimiter mark => [mark.symbol]
  | integer value => (integerText value).toList
  | real value => value.pointed
  | text value => quoted value
  | group tokens => List.intercalate [' '] (tokens.map chars)
termination_by token => token

/-- The canonical text of a token. -/
def render (token : Token) : String := String.ofList token.chars

/-- The canonical text of several tokens. -/
def renderAll (tokens : List Token) : String :=
  String.ofList (List.intercalate [' '] (tokens.map chars))

/-- What a token says, without any quotes. -/
def content : Token → String
  | identifier name => name
  | text value => value
  | keyword word => word.spelling
  | token => token.render

end Token

namespace Statement

/-- The canonical text of a statement. -/
def render (statement : Statement) : String := Token.renderAll statement.tokens

/-- What the first token says. -/
def command? (statement : Statement) : Option String :=
  statement.tokens.head?.map Token.content

end Statement

end TableDump
