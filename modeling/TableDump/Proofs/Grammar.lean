import Mathlib
import TableDump.Text.Utf8
import TableDump.Token.Basic

/-!
# The grammar of dumps

What a dump is, without a word about how it is read: relations between
statements, tokens and byte strings, one rule for each way of writing something.

Whether some bytes are a token can depend on what follows them. A word goes on
for as long as it can, a point belongs to the number before it if a digit comes
next, and the comment in the last line needs no line end. So each relation also
has the `rest` of the dump, and the rules for runs of bytes look at its head.
Nothing else needs to be said about ambiguity: no rule asks that blanks are
taken greedily, since what comes behind them cannot begin with one.

Classes of bytes are given by the characters they contain, a number by the
digits that write it, and an escape by a table.
-/

namespace TableDump.Grammar

/-! ## Classes of bytes -/

/-- The bytes from one character to another. -/
def InRange (first last : Char) (byte : UInt8) : Prop := ascii first ≤ byte ∧ byte ≤ ascii last

instance (first last : Char) : DecidablePred (InRange first last) :=
  fun _ => inferInstanceAs (Decidable (_ ∧ _))

/-- Space, tab, carriage return or line feed. -/
def IsSpace (byte : UInt8) : Prop :=
  byte = ascii ' ' ∨ byte = ascii '\t' ∨ byte = ascii '\r' ∨ byte = ascii '\n'

instance : DecidablePred IsSpace := fun _ => inferInstanceAs (Decidable (_ ∨ _))

def IsLetter (byte : UInt8) : Prop := InRange 'A' 'Z' byte ∨ InRange 'a' 'z' byte

instance : DecidablePred IsLetter := fun _ => inferInstanceAs (Decidable (_ ∨ _))

def IsDigit (byte : UInt8) : Prop := InRange '0' '9' byte

instance : DecidablePred IsDigit := fun _ => inferInstanceAs (Decidable (InRange _ _ _))

/-- The bytes that a word goes on with. -/
def IsWordByte (byte : UInt8) : Prop := IsLetter byte ∨ IsDigit byte ∨ byte = ascii '_'

instance : DecidablePred IsWordByte := fun _ => inferInstanceAs (Decidable (_ ∨ _))

/-- **A run of bytes of a class ends here**: the next byte, if there is one, is
of another class. -/
def Ends (member : UInt8 → Prop) (rest : Bytes) : Prop :=
  ∀ byte, rest.head? = some byte → ¬ member byte

/-! ## Blanks -/

/-- **A comment**: to the end of the line, or to the first `*/`. -/
inductive Comment : (source rest : Bytes) → Prop where
  /-- From `--` to the end of the line. -/
  | line {text rest : Bytes} (inside : ascii '\n' ∉ text) :
      Comment (ascii '-' :: ascii '-' :: (text ++ [ascii '\n'])) rest
  /-- From `--` to the end of the input. -/
  | lastLine {text : Bytes} (inside : ascii '\n' ∉ text) :
      Comment (ascii '-' :: ascii '-' :: text) []
  /-- From `/*` to `*/`. -/
  | block {text rest : Bytes} (inside : ¬ [ascii '*', ascii '/'] <:+: text) :
      Comment (ascii '/' :: ascii '*' :: (text ++ [ascii '*', ascii '/'])) rest

/-- **What may stand between tokens.** -/
inductive Blank : (source rest : Bytes) → Prop where
  | space {byte : UInt8} {rest : Bytes} (space : IsSpace byte) : Blank [byte] rest
  | comment {source rest : Bytes} (comment : Comment source rest) : Blank source rest

/-- Any number of blanks. -/
inductive Blanks : (source rest : Bytes) → Prop where
  | nil {rest : Bytes} : Blanks [] rest
  | cons {source more rest : Bytes} (first : Blank source (more ++ rest))
      (others : Blanks more rest) : Blanks (source ++ more) rest

/-! ## Tokens that are no groups -/

/-- **A word**: a letter and all word bytes behind it. -/
structure Word (word rest : Bytes) : Prop where
  /-- It begins with a letter. -/
  letter : ∃ byte, word.head? = some byte ∧ IsLetter byte
  /-- It goes on with word bytes. -/
  bytes : ∀ byte ∈ word, IsWordByte byte
  /-- It takes all of them. -/
  ends : Ends IsWordByte rest

/-- Some digits, one at least. -/
structure Digits (digits : Bytes) : Prop where
  ne_nil : digits ≠ []
  bytes : ∀ byte ∈ digits, IsDigit byte

/-- The number that digits write. -/
def value (digits : Bytes) : Nat :=
  Nat.ofDigits 10 (digits.reverse.map fun digit => digit.toNat - (ascii '0').toNat)

/-- A point with a digit behind it. -/
def StartsFraction (rest : Bytes) : Prop :=
  ∃ digit more, rest = ascii '.' :: digit :: more ∧ IsDigit digit

/-- The bytes that are written with a letter behind a backslash. -/
def escapes : List (UInt8 × UInt8) :=
  [(ascii 'b', ascii '\x08'), (ascii 't', ascii '\t'), (ascii 'r', ascii '\r'),
    (ascii 'n', ascii '\n')]

/-- What a byte stands for behind a backslash. -/
def escaped (byte : UInt8) : UInt8 := (escapes.lookup byte).getD byte

/-- **The inside of a quoted text**, and what it stands for. -/
inductive Quoted (quote : UInt8) : (source content : Bytes) → Prop where
  | nil : Quoted quote [] []
  | plain {byte : UInt8} {source content : Bytes} (quote_ne : byte ≠ quote)
      (backslash_ne : byte ≠ ascii '\\') (others : Quoted quote source content) :
      Quoted quote (byte :: source) (byte :: content)
  | escape {byte : UInt8} {source content : Bytes} (others : Quoted quote source content) :
      Quoted quote (ascii '\\' :: byte :: source) (escaped byte :: content)

/-- **A token that is no group.** -/
inductive Lexeme : Token → (source rest : Bytes) → Prop where
  /-- A word that is reserved. -/
  | keyword {word rest : Bytes} {keyword : Keyword} (bytes : Word word rest)
      (found : Keyword.lookup (Utf8.decode word) = some keyword) :
      Lexeme (.keyword keyword) word rest
  /-- A word that is not. -/
  | identifier {word rest : Bytes} (bytes : Word word rest)
      (found : Keyword.lookup (Utf8.decode word) = none) :
      Lexeme (.identifier (Utf8.decode word)) word rest
  /-- Digits, and all of them, if they write a number of 64 bits. -/
  | integer {digits rest : Bytes} (bytes : Digits digits) (ends : Ends IsDigit rest)
      (whole : ¬ StartsFraction rest) (fits : value digits < 2 ^ 63) :
      Lexeme (.integer (Int64.ofNat (value digits))) digits rest
  /-- Digits with a point among them, if a finite number is nearest to it. -/
  | real {whole fraction rest : Bytes} {number : Binary64} (before : Digits whole)
      (behind : Digits fraction) (ends : Ends IsDigit rest)
      (nearest : Binary64.ofDecimal? ⟨value (whole ++ fraction), -fraction.length⟩
        = some number) :
      Lexeme (.real number) (whole ++ ascii '.' :: fraction) rest
  /-- A text in quotes of either kind. -/
  | text {quote : UInt8} {source content rest : Bytes}
      (mark : quote = ascii '\x27' ∨ quote = ascii '"') (inside : Quoted quote source content) :
      Lexeme (.text (Utf8.decode content)) (quote :: (source ++ [quote])) rest
  /-- A name in backticks. -/
  | name {name rest : Bytes} (inside : ascii '\x60' ∉ name) :
      Lexeme (.identifier (Utf8.decode name)) (ascii '\x60' :: (name ++ [ascii '\x60'])) rest
  /-- A punctuation mark that is no parenthesis. -/
  | mark {mark : Delimiter} {rest : Bytes} (single : mark ∈ [.comma, .equal, .dot]) :
      Lexeme (.delimiter mark) [ascii mark.symbol] rest

/-! ## Groups and statements -/

mutual

/-- **A token** with `depth` groups around it. -/
inductive Item (maxDepth : Nat) : (depth : Nat) → Token → (source rest : Bytes) → Prop where
  | lexeme {depth : Nat} {token : Token} {source rest : Bytes}
      (lexeme : Lexeme token source rest) : Item maxDepth depth token source rest
  | group {depth : Nat} {tokens : List Token} {blanks source rest : Bytes}
      (room : depth < maxDepth)
      (leading : Blanks blanks (source ++ ascii ')' :: rest))
      (inside : Items maxDepth (depth + 1) tokens source (ascii ')' :: rest)) :
      Item maxDepth depth
        (.group (.delimiter .leftParen :: (tokens ++ [.delimiter .rightParen])))
        (ascii '(' :: (blanks ++ (source ++ [ascii ')']))) rest

/-- Any number of tokens, with blanks behind each of them. -/
inductive Items (maxDepth : Nat) : (depth : Nat) → List Token → (source rest : Bytes) → Prop where
  | nil {depth : Nat} {rest : Bytes} : Items maxDepth depth [] [] rest
  | cons {depth : Nat} {token : Token} {tokens : List Token} {source blanks more rest : Bytes}
      (first : Item maxDepth depth token source (blanks ++ (more ++ rest)))
      (between : Blanks blanks (more ++ rest))
      (others : Items maxDepth depth tokens more rest) :
      Items maxDepth depth (token :: tokens) (source ++ (blanks ++ more)) rest

end

/-- **A statement**: tokens and a semicolon, which the end of the input can
stand for if there are tokens. -/
inductive IsStatement (maxDepth : Nat) : Statement → (source rest : Bytes) → Prop where
  | closed {tokens : List Token} {source rest : Bytes}
      (items : Items maxDepth 0 tokens source (ascii ';' :: rest)) :
      IsStatement maxDepth { tokens } (source ++ [ascii ';']) rest
  | last {tokens : List Token} {source : Bytes} (ne_nil : tokens ≠ [])
      (items : Items maxDepth 0 tokens source []) : IsStatement maxDepth { tokens } source []

/-- Any number of statements, with blanks behind each of them, up to the end of
the input. -/
inductive Statements (maxDepth : Nat) : List Statement → (source : Bytes) → Prop where
  | nil : Statements maxDepth [] []
  | cons {statement : Statement} {statements : List Statement} {source blanks more : Bytes}
      (first : IsStatement maxDepth statement source (blanks ++ more))
      (between : Blanks blanks more) (others : Statements maxDepth statements more) :
      Statements maxDepth (statement :: statements) (source ++ (blanks ++ more))

/-- **A dump.** -/
inductive Dump (maxDepth : Nat) : List Statement → (source : Bytes) → Prop where
  | intro {statements : List Statement} {blanks source : Bytes} (leading : Blanks blanks source)
      (inside : Statements maxDepth statements source) :
      Dump maxDepth statements (blanks ++ source)

end TableDump.Grammar
