import Mathlib
import TableDump.Proofs.Grammar
import TableDump.Proofs.Utf8
import TableDump.Token.Scan

/-!
# What can be wrong with a dump

The grammar says what a dump is. Of bytes that are no dump it says only that, and
not where they go wrong. But a dump is read from left to right, and a place in it
is reached by a sequence of blanks, tokens and marks, of which one only has to know
how many groups they leave open (`Grammar.Underway`). At such a place reading goes on
unless one of a few things stands there (`Grammar.Stuck`): a comment or a quoted
thing without an end, a number without a value, a byte that begins nothing, one
parenthesis too many, or the end of the input with one too few.

Like the grammar, this is about bytes and not about how they are read, and where it
matters what follows, the rest of the input is part of the relation. The parts of a
dump are told from left to right, and there is only one way of doing it.
-/

namespace TableDump

namespace Grammar

/-! ## Where a reading can be -/

/-- **One part of a dump**, with `depth` groups around it, and `after` groups around what is
behind it. -/
inductive Part (maxDepth : Nat) : (depth after : Nat) → (part rest : Bytes) → Prop where
  | blank {depth : Nat} {part rest : Bytes} (blank : Blank part rest) :
      Part maxDepth depth depth part rest
  /-- A token that is no group. -/
  | lexeme {depth : Nat} {token : Token} {part rest : Bytes} (lexeme : Lexeme token part rest) :
      Part maxDepth depth depth part rest
  /-- The parenthesis that opens a group. -/
  | opens {depth : Nat} {rest : Bytes} (room : depth < maxDepth) :
      Part maxDepth depth (depth + 1) [ascii '('] rest
  /-- The parenthesis that closes one, or a semicolon outside all groups. -/
  | closes {depth : Nat} {rest : Bytes} :
      Part maxDepth depth (depth - 1) [ascii (Settings.closing depth)] rest

/-- Any number of parts. -/
inductive Parts (maxDepth : Nat) : (depth after : Nat) → (source rest : Bytes) → Prop where
  | nil {depth : Nat} {rest : Bytes} : Parts maxDepth depth depth [] rest
  | cons {depth middle after : Nat} {part source rest : Bytes}
      (first : Part maxDepth depth middle part (source ++ rest))
      (others : Parts maxDepth middle after source rest) :
      Parts maxDepth depth after (part ++ source) rest

/-- **A place in a dump**, behind `source` and in front of `rest`, with `depth` groups around it. -/
def Underway (maxDepth depth : Nat) (source rest : Bytes) : Prop :=
  Parts maxDepth 0 depth source rest

section

variable {maxDepth depth middle after : Nat} {source part rest : Bytes}

/-- Behind some parts there may be more. -/
theorem Parts.append {more : Bytes} (h : Parts maxDepth depth middle source (more ++ rest))
    (others : Parts maxDepth middle after more rest) :
    Parts maxDepth depth after (source ++ more) rest := by
  generalize behind : more ++ rest = input at h
  induction h with
  | nil => exact others
  | cons first _ ih =>
    subst behind
    rw [List.append_assoc]
    rw [← List.append_assoc] at first
    exact .cons first (ih others rfl)

/-- A part by itself. -/
theorem Part.parts (h : Part maxDepth depth after part rest) :
    Parts maxDepth depth after part rest := by
  have way : Parts maxDepth depth after (part ++ []) rest := .cons h .nil
  rwa [List.append_nil] at way

/-- Blanks are parts. -/
theorem Blanks.parts (h : Blanks source rest) : Parts maxDepth depth depth source rest := by
  induction h with
  | nil => exact .nil
  | cons first _ ih => exact .cons (.blank first) ih

/-- No more groups are open than may be. -/
theorem Part.depth_le (h : Part maxDepth depth after part rest) (le : depth ≤ maxDepth) :
    after ≤ maxDepth := by
  cases h with
  | blank | lexeme => exact le
  | opens room => exact room
  | closes => exact (Nat.sub_le depth 1).trans le

theorem Parts.depth_le (h : Parts maxDepth depth after source rest) (le : depth ≤ maxDepth) :
    after ≤ maxDepth := by
  induction h with
  | nil => exact le
  | cons first _ ih => exact ih (first.depth_le le)

theorem Underway.depth_le (h : Underway maxDepth depth source rest) : depth ≤ maxDepth :=
  Parts.depth_le h (Nat.zero_le maxDepth)

/-- Behind one more part. -/
theorem Underway.past (h : Underway maxDepth depth source (part ++ rest))
    (here : Part maxDepth depth after part rest) :
    Underway maxDepth after (source ++ part) rest :=
  Parts.append h here.parts

/-- Behind any number of blanks. -/
theorem Underway.blanks {skipped : Bytes} (h : Underway maxDepth depth source (skipped ++ rest))
    (here : Blanks skipped rest) : Underway maxDepth depth (source ++ skipped) rest :=
  Parts.append h here.parts

end

/-! ## Where a reading stops -/

/-- **No blank begins here**, nor a block comment without an end. -/
structure Settled (rest : Bytes) : Prop where
  space : Ends IsSpace rest
  line : ¬ [ascii '-', ascii '-'] <+: rest
  block : ¬ [ascii '/', ascii '*'] <+: rest

/-- **No token can be read here**, though one may begin. -/
inductive Unreadable : Malformation → (input : Bytes) → Prop where
  /-- A quote that is not closed: another one behind it is always part of the text. -/
  | text {quote : Char} {tail : Bytes} (mark : quote = '\x27' ∨ quote = '"')
      (unclosed : ∀ source content rest, tail = source ++ ascii quote :: rest →
        ¬ Quoted (ascii quote) source content) :
      Unreadable (.unterminatedString quote) (ascii quote :: tail)
  /-- A backtick that is the last one. -/
  | name {tail : Bytes} (unclosed : ascii '\x60' ∉ tail) :
      Unreadable .unterminatedName (ascii '\x60' :: tail)
  /-- Digits that write a number of more than 64 bits. -/
  | integer {literal : String} {digits rest : Bytes} (bytes : Digits digits)
      (spelled : Utf8.encode literal.toList = digits) (ends : Ends IsDigit rest)
      (whole : ¬ StartsFraction rest) (large : 2 ^ 63 ≤ value digits) :
      Unreadable (.invalidNumber literal) (digits ++ rest)
  /-- Digits with a point among them that are nearest to no finite number. -/
  | real {literal : String} {whole fraction rest : Bytes} (before : Digits whole)
      (behind : Digits fraction)
      (spelled : Utf8.encode literal.toList = whole ++ ascii '.' :: fraction)
      (ends : Ends IsDigit rest)
      (large : Binary64.ofDecimal? ⟨value (whole ++ fraction), -fraction.length⟩ = none) :
      Unreadable (.invalidNumber literal) (whole ++ ascii '.' :: fraction ++ rest)
  /-- A byte that begins no token. -/
  | byte {byte : UInt8} {tail : Bytes} {found : Char}
      (foreign : ∀ token source rest, ¬ Lexeme token (byte :: source) rest) :
      Unreadable (.unexpectedCharacter found) (byte :: tail)

/-- **Reading cannot go on here**, with `depth` groups around, and why. -/
inductive Stuck (maxDepth depth : Nat) : Malformation → (input : Bytes) → Prop where
  /-- A comment that is not closed. -/
  | comment {text : Bytes} (unclosed : ¬ [ascii '*', ascii '/'] <:+: text) :
      Stuck maxDepth depth .unterminatedComment (ascii '/' :: ascii '*' :: text)
  /-- No blank and no group begins, the list of tokens does not end, and there is no token. -/
  | token {cause : Malformation} {byte : UInt8} {tail : Bytes}
      (settled : Settled (byte :: tail)) (unreadable : Unreadable cause (byte :: tail))
      (opens_ne : byte ≠ ascii '(') (closing_ne : byte ≠ ascii (Settings.closing depth)) :
      Stuck maxDepth depth cause (byte :: tail)
  /-- One more group, where as many are open as may be. -/
  | nesting {tail : Bytes} (full : depth = maxDepth) :
      Stuck maxDepth depth (.nestingTooDeep maxDepth) (ascii '(' :: tail)
  /-- The end of the input, where a group is open. -/
  | missing (inside : 0 < depth) :
      Stuck maxDepth depth (.missingDelimiter (Settings.closing depth)) []

end Grammar

namespace Settings

variable (settings : Settings)

/-- **The fault that names a cause and a place**: how far it is from the start of the input to
there, and how the input goes on. -/
def faultAt (cause : Malformation) (before input : Bytes) : Fault :=
  .malformed cause
    { offset := before.length, excerpt := Utf8.decode (input.take settings.excerptLength) }

/-- The first character of what a fault shows, or if it shows nothing, the character whose number
is the next byte. -/
def firstShown (input : Bytes) : Char :=
  (Utf8.decodeChars (input.take settings.excerptLength)).head?.getD
    (Char.ofNat (input.headD 0).toNat)

/-- **What a cause says about the next character** is what the fault shows of it. -/
def Names (cause : Malformation) (input : Bytes) : Prop :=
  ∀ found, cause = .unexpectedCharacter found → found = settings.firstShown input

/-- A cause that says nothing about it. -/
theorem names_of_ne {cause : Malformation} {input : Bytes}
    (h : ∀ found, cause ≠ .unexpectedCharacter found) : settings.Names cause input :=
  fun found same => absurd same (h found)

end Settings

end TableDump
