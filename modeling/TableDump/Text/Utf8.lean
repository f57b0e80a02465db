import TableDump.Bytes

/-!
# Text from bytes that may not be text

A dump is read as bytes and only the insides of tokens become text. Bytes
that are not UTF-8 must not stop the reading, so each of them is replaced –
not one by one, but by *maximal subparts*: as many bytes as could still begin
a character become a single U+FFFD, and decoding goes on with the byte that
did not fit.

A character is decoded in two steps. The lead byte fixes how many bytes follow
and the range of the first of them (`decodeFirst`); that narrower range is
what keeps out overlong forms, surrogates and numbers above U+10FFFF. The
following bytes are then taken one at a time (`decodeTail`), and the first
misfit ends the attempt.
-/

namespace TableDump.Utf8

/-- U+FFFD, which stands for bytes that are no character. -/
def replacement : Char := '\uFFFD'

/-- **The bytes after the lead.** Takes `count` bytes, the first of which must
lie between `low` and `high` and the others between `80` and `BF`; `value` and
`used` are what has been read so far. Gives the character, or the replacement
if some byte does not fit, with the number of bytes that belong to it. -/
def decodeTail : (count : Nat) → (low high : UInt8) → (value used : Nat) → Bytes → Char × Nat
  | 0, _, _, value, used, _ => (Char.ofNat value, used)
  | _ + 1, _, _, _, used, [] => (replacement, used)
  | count + 1, low, high, value, used, byte :: rest =>
    if low ≤ byte && byte ≤ high then
      decodeTail count 0x80 0xBF (value * 64 + (byte.toNat - 0x80)) (used + 1) rest
    else (replacement, used)

/-- The character that begins with the byte `lead`, and how many bytes of
`rest` belong to it. -/
def decodeFirst (lead : UInt8) (rest : Bytes) : Char × Nat :=
  if lead < 0x80 then (Char.ofNat lead.toNat, 0)
  else if lead < 0xC2 then (replacement, 0)
  else if lead < 0xE0 then decodeTail 1 0x80 0xBF (lead.toNat - 0xC0) 0 rest
  else if lead == 0xE0 then decodeTail 2 0xA0 0xBF 0 0 rest
  else if lead == 0xED then decodeTail 2 0x80 0x9F 0x0D 0 rest
  else if lead < 0xF0 then decodeTail 2 0x80 0xBF (lead.toNat - 0xE0) 0 rest
  else if lead == 0xF0 then decodeTail 3 0x90 0xBF 0 0 rest
  else if lead < 0xF4 then decodeTail 3 0x80 0xBF (lead.toNat - 0xF0) 0 rest
  else if lead == 0xF4 then decodeTail 3 0x80 0x8F 4 0 rest
  else (replacement, 0)

/-- Decodes all of the bytes behind the characters in `before`, which are in
reverse order. -/
def decodeOnto (before : List Char) : Bytes → List Char
  | [] => before
  | lead :: rest =>
    let first := decodeFirst lead rest
    decodeOnto (first.1 :: before) (rest.drop first.2)
termination_by bytes => bytes.length
decreasing_by simp only [List.length_drop, List.length_cons]; omega

/-- The characters of a byte string. -/
def decodeChars (bytes : Bytes) : List Char := (decodeOnto [] bytes).reverse

/-- **The text of a byte string**, with U+FFFD for each maximal part that is
not UTF-8. -/
def decode (bytes : Bytes) : String := String.ofList (decodeChars bytes)

end TableDump.Utf8
