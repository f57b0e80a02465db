import TableDump.Row.Json

/-!
# Rows from JSON objects

Reading takes any JSON text, and refuses it for one of three reasons
(`Refusal`): it is not JSON, it ends too soon, or it is JSON but no row. A
member that is no value of a row is found to be one only after it has been read
to its end, so what is wrong inside of it comes first.

Numbers are read in two kinds. A number without fraction and exponent is an
integer if there is one, and else the nearest real. Other numbers are read in
two roundings: their digits, as many as fit into 64 bits, make a real, and this
is multiplied or divided by the real nearest to a power of ten. That is not
always the nearest real, but it is exact for numbers of up to 15 digits whose
power of ten is at most the 22nd.

All functions work on the characters still to be read and give back those that
are left.
-/

namespace TableDump

namespace Json

/-- Why a text is refused. -/
inductive Refusal where
  /-- It is not JSON. -/
  | illFormed
  /-- It ends too soon. -/
  | truncated
  /-- It is JSON, but no row. -/
  | wrongShape
  deriving DecidableEq, Repr

/-- What was read off the front of a text, and what is left of the text. -/
abbrev Front (α : Type) := α × List Char

/-- Is a character one of the four blanks? -/
def isBlank (character : Char) : Bool :=
  character == ' ' || character == '\n' || character == '\t' || character == '\r'

/-- What follows the blanks. -/
def skipBlanks (input : List Char) : List Char := input.dropWhile isBlank

/-! ## Strings -/

/-- The value of a hexadecimal digit. -/
def hexValue? (character : Char) : Option Nat :=
  if '0' ≤ character ∧ character ≤ '9' then some (character.toNat - '0'.toNat)
  else if 'a' ≤ character ∧ character ≤ 'f' then some (character.toNat - 'a'.toNat + 10)
  else if 'A' ≤ character ∧ character ≤ 'F' then some (character.toNat - 'A'.toNat + 10)
  else none

/-- The number that four hexadecimal digits write. The text ends too soon for
them if it has fewer than four bytes left, which may be more than its
characters. -/
def readUnit : List Char → Except Refusal (Front Nat)
  | first :: second :: third :: fourth :: rest =>
    match hexValue? first, hexValue? second, hexValue? third, hexValue? fourth with
    | some a, some b, some c, some d => .ok (((a * 16 + b) * 16 + c) * 16 + d, rest)
    | _, _, _, _ => .error .illFormed
  | rest => .error (if (String.ofList rest).utf8ByteSize < 4 then .truncated else .illFormed)

/-- The second half of a character that is written as two units. -/
def readLowUnit (high : Nat) : List Char → Except Refusal (Front Char)
  | '\\' :: 'u' :: rest => do
    let (low, rest) ← readUnit rest
    if 0xDC00 ≤ low ∧ low ≤ 0xDFFF then
      return (Char.ofNat (0x10000 + (high - 0xD800) * 0x400 + (low - 0xDC00)), rest)
    else .error .illFormed
  | [] | ['\\'] => .error .truncated
  | _ => .error .illFormed

/-- The character that an escape with a number stands for. -/
def readNumbered (input : List Char) : Except Refusal (Front Char) := do
  let (code, rest) ← readUnit input
  if 0xD800 ≤ code ∧ code ≤ 0xDBFF then readLowUnit code rest
  else if 0xDC00 ≤ code ∧ code ≤ 0xDFFF then .error .illFormed
  else return (Char.ofNat code, rest)

/-- The character that an escape stands for, behind the backslash. -/
def readEscape : List Char → Except Refusal (Front Char)
  | [] => .error .truncated
  | letter :: rest =>
    match letter with
    | '"' => .ok ('"', rest)
    | '\\' => .ok ('\\', rest)
    | '/' => .ok ('/', rest)
    | 'b' => .ok ('\x08', rest)
    | 'f' => .ok ('\x0C', rest)
    | 'n' => .ok ('\n', rest)
    | 'r' => .ok ('\r', rest)
    | 't' => .ok ('\t', rest)
    | 'u' => readNumbered rest
    | _ => .error .illFormed

/-- The rest of a string, behind the characters in `before`, which are in
reverse order. Every step reads at least one character, so `fuel` may be their
number. -/
def readStringOnto : (fuel : Nat) → (before : List Char) → List Char →
    Except Refusal (Front String)
  | 0, _, _ => .error .truncated
  | _ + 1, _, [] => .error .truncated
  | fuel + 1, before, character :: rest =>
    if character = '"' then .ok (String.ofList before.reverse, rest)
    else if character = '\\' then
      match readEscape rest with
      | .error refusal => .error refusal
      | .ok (escaped, rest) => readStringOnto fuel (escaped :: before) rest
    else if character.toNat < 0x20 then .error .illFormed
    else readStringOnto fuel (character :: before) rest

/-- The rest of a string, behind its opening quote. -/
def readString (input : List Char) : Except Refusal (Front String) :=
  readStringOnto (input.length + 1) [] input

/-! ## Numbers -/

/-- The largest number of 64 bits. -/
def largestWord : Nat := 0xFFFFFFFFFFFFFFFF

/-- **Appends digits to a number as long as it fits 64 bits**; gives the number
and how many digits it took. -/
def absorb (number taken : Nat) : List Char → Nat × Nat
  | [] => (number, taken)
  | digit :: rest =>
    let longer := number * 10 + (digit.toNat - '0'.toNat)
    if longer ≤ largestWord then absorb longer (taken + 1) rest else (number, taken)

/-- The magnitude nearest to a power of ten. -/
def powerOfTen (exponent : Nat) : Nat := Binary64.nearest (Nat.pow 10 exponent) 1

/-- The magnitude that `number * 10 ^ exponent` is read as, in two roundings;
infinite if it is too large. Powers of ten beyond the 308th are too large to be
reals, and a division by one is done in two steps. -/
def scaled (number : Nat) (exponent : Int) : Nat :=
  let magnitude := Binary64.nearest number 1
  match exponent with
  | .ofNat power =>
    if magnitude = 0 then 0
    else if power ≤ 308 then Binary64.product magnitude (powerOfTen power)
    else Binary64.infinity
  | .negSucc power =>
    if power < 308 then Binary64.quotient magnitude (powerOfTen (power + 1))
    else if power < 616 then
      Binary64.quotient (Binary64.quotient magnitude (powerOfTen 308)) (powerOfTen (power - 307))
    else 0

/-- The real with a sign and `number * 10 ^ exponent`, unless it is too
large. -/
def realCell (negative : Bool) (number : Nat) (exponent : Int) : Except Refusal Cell :=
  let magnitude := scaled number exponent
  if magnitude < Binary64.infinity then .ok (.real (Binary64.ofMagnitude negative magnitude))
  else .error .illFormed

/-- The value of a number without fraction and exponent. Minus zero is a real,
since no integer is. -/
def wholeCell (negative : Bool) (number : Nat) : Cell :=
  if negative then
    if 0 < number ∧ number ≤ integerBound then .integer (Int64.ofInt (-number))
    else .real (Binary64.ofMagnitude true (Binary64.nearest number 1))
  else if number < integerBound then .integer (Int64.ofInt number)
  else .real (Binary64.ofMagnitude false (Binary64.nearest number 1))

/-- A run of digits, at least one. -/
def readDigits (input : List Char) : Except Refusal (Front (List Char)) :=
  match input.takeWhile Char.isDigit with
  | [] => .error (if input.isEmpty then .truncated else .illFormed)
  | digits => .ok (digits, input.dropWhile Char.isDigit)

/-- The number that a run of digits writes. -/
def readNatural (input : List Char) : Except Refusal (Front Nat) := do
  let (digits, rest) ← readDigits input
  return (digits.foldl (fun value digit => value * 10 + (digit.toNat - '0'.toNat)) 0, rest)

/-- The exponent of a number, behind its letter. -/
def readExponent : List Char → Except Refusal (Front Int)
  | '-' :: rest => do
    let (power, rest) ← readNatural rest
    return (-power, rest)
  | '+' :: rest | rest => do
    let (power, rest) ← readNatural rest
    return (power, rest)

/-- The rest of a number, behind its digits and its fraction. -/
def readScaled (negative : Bool) (number : Nat) (exponent : Int) :
    List Char → Except Refusal (Front Cell)
  | letter :: rest => do
    if letter = 'e' ∨ letter = 'E' then
      let (power, rest) ← readExponent rest
      return (← realCell negative number (exponent + power), rest)
    else return (← realCell negative number exponent, letter :: rest)
  | [] => do return (← realCell negative number exponent, [])

/-- A number without its sign. -/
def readUnsigned (negative : Bool) (input : List Char) : Except Refusal (Front Cell) := do
  let (digits, rest) ← readDigits input
  if digits.head? = some '0' ∧ digits.length ≠ 1 then .error .illFormed
  else
    let (number, taken) := absorb 0 0 digits
    let missing := digits.length - taken
    match rest with
    | '.' :: rest => do
      let (fraction, rest) ← readDigits rest
      let (number, taken) := absorb number 0 fraction
      readScaled negative number (missing - taken : Int) rest
    | letter :: _ =>
      if letter = 'e' ∨ letter = 'E' ∨ missing ≠ 0 then readScaled negative number missing rest
      else return (wholeCell negative number, rest)
    | [] =>
      if missing ≠ 0 then readScaled negative number missing rest
      else return (wholeCell negative number, rest)

/-- A number. -/
def readNumber : List Char → Except Refusal (Front Cell)
  | '-' :: rest => readUnsigned true rest
  | input => readUnsigned false input

/-! ## Values -/

/-- Steps over the letters of a word. -/
def readWord : (letters : List Char) → List Char → Except Refusal (Front Unit)
  | [], rest => .ok ((), rest)
  | _ :: _, [] => .error .truncated
  | letter :: letters, character :: rest =>
    if letter = character then readWord letters rest else .error .illFormed

/-- What stands for something that is no value of a row, although it is
JSON. -/
abbrev foreign : Option Cell := none

/-- How many arrays and objects may stand inside one another. -/
def maxNesting : Nat := 127

/-- A simple value, which begins with `first`. -/
def readSimple (first : Char) (rest : List Char) : Except Refusal (Front (Option Cell)) :=
  if first = 'n' then do
    let (_, rest) ← readWord ['u', 'l', 'l'] rest
    return (some .null, rest)
  else if first = 't' then do
    let (_, rest) ← readWord ['r', 'u', 'e'] rest
    return (foreign, rest)
  else if first = 'f' then do
    let (_, rest) ← readWord ['a', 'l', 's', 'e'] rest
    return (foreign, rest)
  else if first = '"' then do
    let (text, rest) ← readString rest
    return (some (.text text), rest)
  else if first = '-' ∨ first.isDigit then do
    let (cell, rest) ← readNumber (first :: rest)
    return (some cell, rest)
  else .error .illFormed

/-- What follows an item of a list that `close` ends: nothing, or the next
item. -/
def afterItem (close : Char) (input : List Char) : Except Refusal (Front Bool) :=
  match skipBlanks input with
  | [] => .error .truncated
  | character :: rest =>
    if character = close then .ok (false, rest)
    else if character = ',' then
      match skipBlanks rest with
      | [] => .error .truncated
      | next :: more => if next = close then .error .illFormed else .ok (true, next :: more)
    else .error .illFormed

/-- The name of a member and its colon. -/
def readName : List Char → Except Refusal (Front String)
  | [] => .error .truncated
  | '"' :: rest => do
    let (name, rest) ← readString rest
    match skipBlanks rest with
    | [] => .error .truncated
    | ':' :: rest => return (name, rest)
    | _ => .error .illFormed
  | _ => .error .illFormed

mutual

/-- Any value, with `depth` arrays and objects around it. Every step reads a
character or takes apart what was read, so that twice the number of characters
is enough `fuel`. -/
def readValue : (fuel depth : Nat) → List Char → Except Refusal (Front (Option Cell))
  | 0, _, _ => .error .truncated
  | fuel + 1, depth, input =>
    match skipBlanks input with
    | [] => .error .truncated
    | first :: rest =>
      if first = '[' ∨ first = '\x7b' then
        if maxNesting ≤ depth then .error .illFormed
        else
          let close := if first = '[' then ']' else '\x7d'
          match skipBlanks rest with
          | [] => .error .truncated
          | second :: more =>
            if second = close then .ok (foreign, more)
            else if first = '[' then readItems fuel (depth + 1) (second :: more)
            else readMembers fuel (depth + 1) (second :: more)
      else readSimple first rest

/-- The items of an array, up to its end. -/
def readItems : (fuel depth : Nat) → List Char → Except Refusal (Front (Option Cell))
  | 0, _, _ => .error .truncated
  | fuel + 1, depth, input =>
    match readValue fuel depth input with
    | .error refusal => .error refusal
    | .ok (_, rest) =>
      match afterItem ']' rest with
      | .error refusal => .error refusal
      | .ok (false, rest) => .ok (foreign, rest)
      | .ok (true, rest) => readItems fuel depth rest

/-- The members of an object that is no row, up to its end. -/
def readMembers : (fuel depth : Nat) → List Char → Except Refusal (Front (Option Cell))
  | 0, _, _ => .error .truncated
  | fuel + 1, depth, input =>
    match readName input with
    | .error refusal => .error refusal
    | .ok (_, rest) =>
      match readValue fuel depth rest with
      | .error refusal => .error refusal
      | .ok (_, rest) =>
        match afterItem '\x7d' rest with
        | .error refusal => .error refusal
        | .ok (false, rest) => .ok (foreign, rest)
        | .ok (true, rest) => readMembers fuel depth rest

end

/-- Any value that is not inside of another, or of which only the beginning
matters. -/
def readAny (depth : Nat) (input : List Char) : Except Refusal (Front (Option Cell)) :=
  readValue (2 * input.length + 2) depth input

/-! ## Rows -/

/-- The cells of a row, behind those in `before`, which are in reverse
order. -/
def readCellsOnto : (fuel : Nat) → (before : List (String × Cell)) → List Char →
    Except Refusal (Front Row)
  | 0, _, _ => .error .truncated
  | fuel + 1, before, input =>
    match readName input with
    | .error refusal => .error refusal
    | .ok (name, rest) =>
      match readAny 1 rest with
      | .error refusal => .error refusal
      | .ok (none, _) => .error .wrongShape
      | .ok (some cell, rest) =>
        match afterItem '\x7d' rest with
        | .error refusal => .error refusal
        | .ok (false, rest) => .ok ({ cells := ((name, cell) :: before).reverse }, rest)
        | .ok (true, rest) => readCellsOnto fuel ((name, cell) :: before) rest

/-- A row. Of an array in its place only the beginning is read. -/
def readRow (input : List Char) : Except Refusal (Front Row) :=
  match skipBlanks input with
  | [] => .error .truncated
  | first :: rest =>
    if first = '\x7b' then
      match skipBlanks rest with
      | '\x7d' :: rest => .ok ({}, rest)
      | rest => readCellsOnto (rest.length + 1) [] rest
    else if first = '[' then .error .wrongShape
    else
      match readSimple first rest with
      | .error refusal => .error refusal
      | .ok _ => .error .wrongShape

end Json

/-- **The row that a JSON text is**, with nothing but blanks around it. -/
def Row.ofJson (text : String) : Except Json.Refusal Row :=
  match Json.readRow text.toList with
  | .error refusal => .error refusal
  | .ok (row, rest) => if (Json.skipBlanks rest).isEmpty then .ok row else .error .illFormed

end TableDump
