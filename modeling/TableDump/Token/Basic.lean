import TableDump.Binary64.Basic
import TableDump.Bytes
import TableDump.Keyword

/-!
# Tokens and statements

What is read from a dump is a tree: a statement is a list of tokens, and a
token may be a *group*, a parenthesized list of tokens. The parentheses belong
to the group, as its first and last token. Reading makes no other groups, but
the type has them, and whoever takes a group apart has to look.

Two tokens are equal when they are written alike: numbers when they are the
same kind of number with the same value, reals in particular when their bits
are the same.
-/

namespace TableDump

/-- The punctuation between tokens. -/
inductive Delimiter where
  | comma
  | leftParen
  | rightParen
  | equal
  | dot
  deriving DecidableEq, Repr

namespace Delimiter

/-- All delimiters. -/
def all : List Delimiter := [comma, leftParen, rightParen, equal, dot]

/-- How a delimiter is written. -/
def symbol : Delimiter → Char
  | comma => ','
  | leftParen => '('
  | rightParen => ')'
  | equal => '='
  | dot => '.'

/-- The delimiter that is written with a byte. -/
def ofByte? (byte : UInt8) : Option Delimiter :=
  all.find? fun delimiter => ascii delimiter.symbol == byte

end Delimiter

/-- Integers are smaller than this number, and not smaller than its
negative. -/
def integerBound : Nat := 0x8000000000000000

/-- A unit of dump text. -/
inductive Token where
  /-- A name. -/
  | identifier (name : String)
  /-- A reserved word. -/
  | keyword (keyword : Keyword)
  /-- A punctuation mark. -/
  | delimiter (delimiter : Delimiter)
  /-- A number without a fraction. -/
  | integer (value : Int64)
  /-- A number with a fraction. -/
  | real (value : Binary64)
  /-- A quoted text, with its escapes resolved. -/
  | text (value : String)
  /-- A parenthesized list, with its parentheses. -/
  | group (tokens : List Token)

namespace Token

/-! ## Equality -/

mutual

/-- Are two tokens written alike? -/
def same : Token → Token → Bool
  | identifier first, identifier second => first == second
  | keyword first, keyword second => first == second
  | delimiter first, delimiter second => first == second
  | integer first, integer second => first == second
  | real first, real second => first == second
  | text first, text second => first == second
  | group first, group second => allSame first second
  | _, _ => false

/-- Are two lists of tokens written alike? -/
def allSame : List Token → List Token → Bool
  | [], [] => true
  | first :: firsts, second :: seconds => same first second && allSame firsts seconds
  | _, _ => false

end

mutual

theorem same_iff : ∀ first second : Token, same first second = true ↔ first = second
  | identifier _, second => by cases second <;> simp [same]
  | keyword _, second => by cases second <;> simp [same]
  | delimiter _, second => by cases second <;> simp [same]
  | integer _, second => by cases second <;> simp [same]
  | real _, second => by cases second <;> simp [same]
  | text _, second => by cases second <;> simp [same]
  | group _, second => by cases second <;> simp [same, allSame_iff]

theorem allSame_iff :
    ∀ firsts seconds : List Token, allSame firsts seconds = true ↔ firsts = seconds
  | [], seconds => by cases seconds <;> simp [allSame]
  | first :: firsts, seconds => by
    cases seconds with
    | nil => simp [allSame]
    | cons second seconds => simp [allSame, same_iff first second, allSame_iff firsts seconds]

end

instance : DecidableEq Token := fun first second =>
  decidable_of_iff (same first second = true) (same_iff first second)

/-! ## Looking at a token -/

/-- The name, if the token is one. -/
def name? : Token → Option String
  | identifier name => some name
  | _ => none

/-- The tokens of the group, if the token is one. -/
def tokens? : Token → Option (List Token)
  | group tokens => some tokens
  | _ => none

end Token

/-- What stands before a semicolon of a dump. -/
structure Statement where
  tokens : List Token
  deriving DecidableEq

end TableDump
