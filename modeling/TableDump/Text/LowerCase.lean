import TableDump.Text.LetterCase

/-!
# Lower case

A text in lower case is its characters in lower case, with two exceptions that
the Unicode standard makes for every language. Capital I with a dot becomes two
characters, i and a combining dot. And capital sigma becomes one of two small
sigmas: the final one at the end of a word – after a letter, and not before one
– and the other one everywhere else. Characters that are ignorable for case do
not separate a sigma from its letters.
-/

namespace TableDump

/-- Has a character a case? -/
def isCased (character : Char) : Bool := inRanges casedRanges character.toNat

/-- Is a character skipped when looking for one that has a case? -/
def isCaseIgnorable (character : Char) : Bool := inRanges ignorableRanges character.toNat

/-- Capital sigma. -/
def capitalSigma : Char := '\u03A3'

/-- Is the next character that counts one with a case? -/
def meetsCased (characters : List Char) : Bool :=
  (characters.dropWhile isCaseIgnorable).head?.any isCased

/-- The lower case of a capital sigma between the characters `before`, nearest
first, and `behind`. -/
def smallSigma (before behind : List Char) : Char :=
  if meetsCased before && !meetsCased behind then '\u03C2' else '\u03C3'

/-- The lower case of any other character. -/
def lowerCharacter (character : Char) : List Char :=
  if character = '\u0130' then ['i', '\u0307']
  else
    match upperRuns.find? fun run => run.holds character.toNat with
    | some run => [Char.ofNat (character.toNat + run.shift).toNat]
    | none => [character]

/-- The characters in lower case behind those in `lowered`, which are in
reverse order, as are the characters in `before`, of which those were made. -/
def lowerOnto (lowered before : List Char) : List Char → List Char
  | [] => lowered.reverse
  | character :: behind =>
    let lower :=
      if character = capitalSigma then [smallSigma before behind] else lowerCharacter character
    lowerOnto (lower.reverse ++ lowered) (character :: before) behind

/-- **A text in lower case.** -/
def lowerCase (text : String) : String := String.ofList (lowerOnto [] [] text.toList)

end TableDump
