import TableDump.Scan
import TableDump.Settings
import TableDump.Text.Utf8
import TableDump.Token.Basic

/-!
# How tokens are read

The first byte of a token decides what it is, and each kind of token then
takes as much as it can: a word all word bytes, a number all digits – and the
point after them only if a digit follows it. Quoted things end at their closing
mark. What a token holds is decoded only after its end has been found, so bytes
that are no text do no harm.

Between tokens stand blanks and comments. A line comment ends with its line, a
block comment with the first `*/` after its opening.

A parenthesis opens a group, whose tokens are read by the same rules until it
closes. What ends a list of tokens is therefore known from the depth alone:
outside all groups it is a semicolon, inside of one the closing parenthesis.

Where reading cannot go on it stops, and the cursor stays at the beginning of
what could not be read.
-/

namespace TableDump

namespace Settings

variable (settings : Settings) {α : Type}

/-- Reading cannot go on where the cursor stands. -/
def malformed (cause : Malformation) : Scan α := do
  let offset ← Scan.position
  let ahead ← Scan.preview settings.excerptLength
  Scan.fail (.malformed cause { offset, excerpt := Utf8.decode ahead })

/-- No token begins with `byte`, which is the next one. The fault names the
character that it begins, if the excerpt is long enough to show it. -/
def unexpected (byte : UInt8) : Scan α := do
  let ahead ← Scan.preview settings.excerptLength
  let characters := Utf8.decodeChars ahead
  let found := characters.head?.getD (Char.ofNat byte.toNat)
  let offset ← Scan.position
  Scan.fail
    (.malformed (.unexpectedCharacter found) { offset, excerpt := String.ofList characters })

/-! ## Between tokens -/

/-- Skips a comment, if one begins here; tells whether one did. -/
def skipComment : Scan Bool := do
  let first ← Scan.peek 0
  let second ← Scan.peek 1
  if first == some (ascii '-') && second == some (ascii '-') then
    match ← Scan.find [ascii '\n'] 2 with
    | some stop => Scan.advance (stop + 1)
    | none => Scan.skipRest
    return true
  else if first == some (ascii '/') && second == some (ascii '*') then
    match ← Scan.find [ascii '*', ascii '/'] 2 with
    | some stop => Scan.advance (stop + 2)
    | none => settings.malformed .unterminatedComment
    return true
  else return false

/-- Skips blanks and at most `fuel` comments. -/
def skipBlanksWithin : (fuel : Nat) → Scan Unit
  | 0 => return ()
  | fuel + 1 => do
    let blanks ← Scan.spanEnd isBlank 0
    if 0 < blanks then Scan.advance blanks
    if ← settings.skipComment then skipBlanksWithin fuel

/-- **Skips all blanks and comments.** -/
def skipBlanks : Scan Unit := do
  settings.skipBlanksWithin ((← Scan.left) + 1)

/-! ## Words and numbers -/

/-- A word: a keyword if it is reserved, and else a name. -/
def scanWord : Scan Token := do
  let stop ← Scan.spanEnd isWordByte 1
  let word := Utf8.decode (← Scan.slice 0 stop)
  Scan.advance stop
  return match Keyword.lookup word with
    | some keyword => .keyword keyword
    | none => .identifier word

/-- The integer that a run of digits writes, unless it is too large. -/
def integer? (digits : Bytes) : Option Token :=
  if digitsValue digits < integerBound then
    some (.integer (Int64.ofNat (digitsValue digits)))
  else none

/-- The real that two runs of digits write, with a point between them, unless
it is too large. -/
def real? (literal : Bytes) : Option Token :=
  let whole := literal.takeWhile isDigit
  let fraction := (literal.dropWhile isDigit).drop 1
  (Binary64.ofDecimal? ⟨digitsValue (whole ++ fraction), -fraction.length⟩).map .real

/-- The number whose literal ends at `stop`. -/
def numeral (value? : Bytes → Option Token) (stop : Nat) : Scan Token := do
  let literal ← Scan.slice 0 stop
  match value? literal with
  | some token =>
    Scan.advance stop
    return token
  | none => settings.malformed (.invalidNumber (Utf8.decode literal))

/-- Does a point with a digit behind it stand at `start`? -/
def fractionAt (start : Nat) : Scan Bool := do
  if (← Scan.peek start) == some (ascii '.') then
    return (← Scan.peek (start + 1)).any isDigit
  else return false

/-- A number: a run of digits, and a fraction if one follows. -/
def scanNumber : Scan Token := do
  let whole ← Scan.spanEnd isDigit 1
  if ← fractionAt whole then
    settings.numeral real? (← Scan.spanEnd isDigit (whole + 2))
  else settings.numeral integer? whole

/-! ## Quoted things -/

/-- What a byte after a backslash stands for. -/
def unescape (byte : UInt8) : UInt8 :=
  if byte == ascii 'b' then 0x08
  else if byte == ascii 't' then 0x09
  else if byte == ascii 'r' then 0x0D
  else if byte == ascii 'n' then 0x0A
  else byte

/-- The bytes of a quoted text from `start` on, behind those in `before`, which
are in reverse order. Moves past the closing quote. `fuel` bounds the number of
escapes. -/
def quotedFrom (quote : UInt8) : (fuel start : Nat) → (before : Bytes) → Scan Bytes
  | 0, _, _ => settings.malformed (.unterminatedString (Char.ofNat quote.toNat))
  | fuel + 1, start, before => do
    match ← Scan.findEither quote (ascii '\\') start with
    | none => settings.malformed (.unterminatedString (Char.ofNat quote.toNat))
    | some mark =>
      let before := (← Scan.slice start mark).reverse ++ before
      if (← Scan.peek mark) == some quote then
        Scan.advance (mark + 1)
        return before.reverse
      else
        match ← Scan.peek (mark + 1) with
        | none => settings.malformed (.unterminatedString (Char.ofNat quote.toNat))
        | some escaped => quotedFrom quote fuel (mark + 2) (unescape escaped :: before)

/-- A text between quotes, in which a backslash takes away the meaning of the
byte after it, or gives it one. -/
def scanText (quote : UInt8) : Scan Token := do
  let bytes ← settings.quotedFrom quote ((← Scan.left) + 1) 1 []
  return .text (Utf8.decode bytes)

/-- A name between backticks. Nothing is escaped in it. -/
def scanName : Scan Token := do
  match ← Scan.find [ascii '\x60'] 1 with
  | none => settings.malformed .unterminatedName
  | some stop =>
    let name := Utf8.decode (← Scan.slice 1 stop)
    Scan.advance (stop + 1)
    return .identifier name

/-! ## Lists of tokens -/

/-- A punctuation mark of one byte. -/
def scanDelimiter (delimiter : Delimiter) : Scan Token := do
  Scan.advance 1
  return .delimiter delimiter

/-- A token that is no group, and begins with `byte`. -/
def scanSimple (byte : UInt8) : Scan Token :=
  if isLetter byte then scanWord
  else if isDigit byte then settings.scanNumber
  else if byte == ascii '\x27' || byte == ascii '"' then settings.scanText byte
  else if byte == ascii '\x60' then settings.scanName
  else if byte == ascii ',' then scanDelimiter .comma
  else if byte == ascii '=' then scanDelimiter .equal
  else if byte == ascii '.' then scanDelimiter .dot
  else settings.unexpected byte

/-- A group with `depth` groups around it, whose tokens `inside` reads. -/
def scanGroup (depth : Nat) (inside : Scan (List Token)) : Scan Token := do
  if settings.maxDepth ≤ depth then
    settings.malformed (.nestingTooDeep settings.maxDepth)
  else
    Scan.advance 1
    settings.skipBlanks
    let tokens ← inside
    return .group (.delimiter .leftParen :: (tokens ++ [.delimiter .rightParen]))

/-- What ends a list of tokens with `depth` groups around it. -/
def closing (depth : Nat) : Char := if depth = 0 then ';' else ')'

/-- The tokens up to the closing mark, behind those in `before`, which are in
reverse order. Moves past the mark. Outside all groups the end of the input
will do. `fuel` bounds the number of tokens, those in groups included. -/
def tokensWithin : (fuel depth : Nat) → (before : List Token) → Scan (List Token)
  | 0, _, before => return before.reverse
  | fuel + 1, depth, before => do
    match ← Scan.peek 0 with
    | none =>
      if depth = 0 then return before.reverse
      else settings.malformed (.missingDelimiter (closing depth))
    | some byte =>
      if byte == ascii (closing depth) then
        Scan.advance 1
        return before.reverse
      else
        let token ←
          if byte == ascii '(' then settings.scanGroup depth (tokensWithin fuel (depth + 1) [])
          else settings.scanSimple byte
        settings.skipBlanks
        tokensWithin fuel depth (token :: before)

/-- **The next statement**, if there is anything but blanks and comments before
the end of the input. -/
def scanStatement : Scan (Option Statement) := do
  settings.skipBlanks
  if ← Scan.atEnd then return none
  else
    let tokens ← settings.tokensWithin ((← Scan.left) + 1) 0 []
    return some { tokens }

end Settings

end TableDump
