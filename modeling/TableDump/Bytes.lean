/-!
# Byte strings and the first place where something stands

A dump is bytes: nothing in it is promised to be text. Input is stored in an
`Array`, where any index is one step away, and pieces cut from it travel as
lists (`Bytes`), which is the form in which they are decoded and reasoned
about.

Searching is one function, `firstIndex`: the least index of a range that
passes a test. Looking for a needle and looking for either of two bytes are
two tests.
-/

namespace TableDump

/-- A byte string, cut out of the input or made from text. -/
abbrev Bytes := List UInt8

/-- The UTF-8 bytes of a text. -/
def bytesOf (text : String) : Array UInt8 := text.toUTF8.data

/-- **The least index that passes.** Looks at `count` indices from `start` on
and gives the first of them for which `test` holds. -/
def firstIndex (test : Nat → Bool) (start : Nat) : (count : Nat) → Option Nat
  | 0 => none
  | count + 1 => if test start then some start else firstIndex test (start + 1) count

/-- Do the bytes of `needle` stand in `held` from `index` on? An empty needle
stands everywhere. -/
def standsAt (held : Array UInt8) : (needle : Bytes) → (index : Nat) → Bool
  | [], _ => true
  | byte :: rest, index => held[index]? == some byte && standsAt held rest (index + 1)

/-- Index of the first occurrence of `needle` in `held` at or after `start`.
The end of `held` counts as a place, so that an empty needle is found there;
past the end nothing is found. -/
def findBytes (held : Array UInt8) (needle : Bytes) (start : Nat) : Option Nat :=
  firstIndex (standsAt held needle) start (held.size + 1 - start)

/-- Index of the first `a` or `b` in `held` at or after `start`. -/
def findEither (held : Array UInt8) (a b : UInt8) (start : Nat) : Option Nat :=
  firstIndex (fun index => held[index]? == some a || held[index]? == some b) start
    (held.size - start)

/-- The byte of an ASCII character. -/
abbrev ascii (character : Char) : UInt8 := character.toUInt8

/-! ## Classes of bytes

Scanning never looks at more than one byte to classify it, and knows ASCII
only: every other byte belongs to none of these classes. -/

/-- Space, tab, carriage return or line feed. -/
def isBlank (byte : UInt8) : Bool :=
  byte == 0x20 || byte == 0x09 || byte == 0x0D || byte == 0x0A

/-- An ASCII digit. -/
def isDigit (byte : UInt8) : Bool := 0x30 ≤ byte && byte ≤ 0x39

/-- An ASCII letter of either case. -/
def isLetter (byte : UInt8) : Bool :=
  (0x41 ≤ byte && byte ≤ 0x5A) || (0x61 ≤ byte && byte ≤ 0x7A)

/-- A byte that can go on a word: letter, digit or underscore. -/
def isWordByte (byte : UInt8) : Bool := isLetter byte || isDigit byte || byte == 0x5F

/-- The number written by a run of digits, most significant first. -/
def digitsValue (digits : Bytes) : Nat :=
  digits.foldl (fun value digit => value * 10 + (digit.toNat - 0x30)) 0

end TableDump
