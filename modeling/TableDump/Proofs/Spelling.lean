import Mathlib
import TableDump.Proofs.Decimal
import TableDump.Proofs.Grammar
import TableDump.Proofs.Lexemes
import TableDump.Proofs.Utf8
import TableDump.Token.Render

/-!
# What is written for a token is that token

The canonical text of a token that is no group is a lexeme of the grammar, for
the same token (`Lexeme.of_simple`). What comes behind it is a blank or a
semicolon, and neither of them can go on a word or a number.

The printer decides by characters, and the grammar goes by bytes. They agree
because all marks are ASCII: a byte that looks like a mark belongs to that mark
and never to another character (`Utf8.ascii_mem_encode`).
-/

namespace TableDump

open Grammar
open Decimal (AllDigits)
open Nat (ofDigitChars)
open Utf8 (encode)

/-! ## Behind a token -/

namespace Grammar

/-- **A blank or a semicolon comes next**, so words and numbers end here. -/
def Breaks (rest : Bytes) : Prop :=
  rest.head? = some (ascii ' ') ∨ rest.head? = some (ascii ';')

variable {rest : Bytes}

/-- A class of bytes that contains neither of the two. -/
theorem Breaks.ends {member : UInt8 → Prop} (h : Breaks rest) (space : ¬ member (ascii ' '))
    (semicolon : ¬ member (ascii ';')) : Ends member rest := by
  intro byte head
  rcases h with h | h
  · rw [h] at head
    exact Option.some.inj head ▸ space
  · rw [h] at head
    exact Option.some.inj head ▸ semicolon

theorem Breaks.ends_word (h : Breaks rest) : Ends IsWordByte rest :=
  h.ends (by decide) (by decide)

theorem Breaks.ends_digits (h : Breaks rest) : Ends IsDigit rest :=
  h.ends (by decide) (by decide)

theorem Breaks.not_startsFraction (h : Breaks rest) : ¬ StartsFraction rest := by
  rintro ⟨digit, more, rfl, -⟩
  rcases h with h | h <;> exact absurd (Option.some.inj h) (by decide)

/-! ## Digits -/

/-- A digit as a character is one as a byte, and has the same value. -/
theorem isDigit_ascii {char : Char} (h : char.isDigit = true) :
    char.toNat < 0x80 ∧ IsDigit (ascii char) ∧ (ascii char).toNat = char.toNat := by
  obtain ⟨low, high⟩ : 48 ≤ char.toNat ∧ char.toNat ≤ 57 := by
    simpa [Char.isDigit, UInt32.le_iff_toNat_le] using h
  have value : (ascii char).toNat = char.toNat :=
    UInt8.toNat_ofNat_of_lt' (Nat.lt_of_le_of_lt high (by decide))
  refine ⟨Nat.lt_of_le_of_lt high (by decide), ?_, value⟩
  show ascii '0' ≤ ascii char ∧ ascii char ≤ ascii '9'
  rw [UInt8.le_iff_toNat_le, UInt8.le_iff_toNat_le, value]
  exact ⟨low, high⟩

theorem encode_digits {chars : List Char} (h : AllDigits chars) :
    encode chars = chars.map ascii :=
  Utf8.encode_ascii fun char mem => (isDigit_ascii (h char mem)).1

theorem Digits.of_allDigits {chars : List Char} (ne_nil : chars ≠ []) (h : AllDigits chars) :
    Digits (encode chars) where
  ne_nil := by
    rw [encode_digits h, Ne, List.map_eq_nil_iff]
    exact ne_nil
  bytes := by
    rw [encode_digits h, List.forall_mem_map]
    exact fun char mem => (isDigit_ascii (h char mem)).2.1

/-- **Digits write the same number as characters and as bytes.** -/
theorem value_encode {chars : List Char} (h : AllDigits chars) :
    value (encode chars) = ofDigitChars 10 chars 0 := by
  rw [encode_digits h, ← digitsValue_eq]
  unfold digitsValue
  rw [List.foldl_map, Nat.ofDigitChars_eq_foldl]
  refine List.foldl_ext _ _ _ fun sum char mem => ?_
  rw [(isDigit_ascii (h char mem)).2.2, Nat.mul_comm]
  rfl

end Grammar

/-! ## Reals -/

namespace Binary64

variable {number : Binary64}

/-- The text of a number that is finite and has no sign is that of a decimal
number that is read as it. -/
theorem exists_decimal (positive : number.isNegative = false) (finite : number.isFinite = true) :
    ∃ decimal : Decimal, number.pointed = decimal.pointed
      ∧ nearestDecimal decimal = number.magnitude := by
  have small : number.magnitude < infinity := of_decide_eq_true finite
  have plain : number.plain = number.plainDigits := by
    unfold Binary64.plain
    rw [if_neg small.not_gt, positive, if_neg small.ne]
    rfl
  have text : ∀ decimal : Decimal, number.plainDigits = decimal.positional false →
      number.pointed = decimal.pointed := by
    intro decimal same
    unfold Binary64.pointed Decimal.pointed
    dsimp only
    rw [plain, same]
  by_cases zero : number.magnitude = 0
  · refine ⟨⟨0, 0⟩, text _ ?_, ?_⟩
    · unfold plainDigits
      rw [if_pos zero]
      rfl
    · rw [zero]
      exact nearest_zero (denominator_pos ⟨0, 0⟩)
  · refine ⟨shortest .up number.magnitude, text _ ?_, nearestDecimal_shortest .up small⟩
    unfold plainDigits
    rw [if_neg zero]

/-- Without its sign a number is its magnitude. -/
theorem ofMagnitude_magnitude (positive : number.isNegative = false) :
    ofMagnitude false number.magnitude = number := by
  have small : number.bits.toNat < signPlace := Nat.not_le.1 (of_decide_eq_false positive)
  unfold ofMagnitude magnitude
  rw [Nat.mod_eq_of_lt small]
  exact congrArg Binary64.mk UInt64.ofNat_toNat

end Binary64

/-! ## Keywords -/

namespace Keyword

/-- Every keyword is listed. -/
theorem mem_all (keyword : Keyword) : keyword ∈ all := by
  have place : all[keyword.ctorIdx]? = some keyword := by
    cases keyword <;> rfl
  exact List.mem_of_getElem? place

/-- The keywords are listed in the order of their spellings, each of them once. -/
theorem nodup_spellings : (all.map fun keyword => (bytesOf keyword.spelling).toList).Nodup := by
  have ordered : (all.map fun keyword => (bytesOf keyword.spelling).toList).IsChain (· < ·) := by
    decide +kernel
  refine (List.isChain_iff_pairwise.1 ordered).imp fun less same => ?_
  exact List.lt_irrefl _ (same ▸ less)

theorem upperCase_spelling (keyword : Keyword) :
    upperCase keyword.spelling = keyword.spelling := by
  have upper : ∀ keyword ∈ all, upperCase keyword.spelling = keyword.spelling := by
    decide +kernel
  exact upper keyword (mem_all keyword)

/-- **The spelling of a keyword is that keyword.** -/
theorem lookup_spelling (keyword : Keyword) : lookup keyword.spelling = some keyword := by
  unfold lookup
  dsimp only
  rw [upperCase_spelling]
  cases found : all.find? fun other => other.spelling == keyword.spelling with
  | none =>
    rw [List.find?_eq_none] at found
    exact absurd (beq_self_eq_true keyword.spelling) (found keyword (mem_all keyword))
  | some other =>
    have same : other.spelling = keyword.spelling := by
      simpa using List.find?_some found
    rw [List.inj_on_of_nodup_map nodup_spellings (mem_all other) (mem_all keyword)
      (congrArg (fun text => (bytesOf text).toList) same)]

/-- The spelling of a keyword is a word. -/
theorem spelling_bytes (keyword : Keyword) :
    ∃ first more, (bytesOf keyword.spelling).toList = first :: more
      ∧ isLetter first = true ∧ more.all isWordByte = true := by
  have bytes : ∀ keyword ∈ all, ((bytesOf keyword.spelling).toList.head?.any isLetter
      && (bytesOf keyword.spelling).toList.tail.all isWordByte) = true := by
    decide +kernel
  have here := bytes keyword (mem_all keyword)
  rw [Bool.and_eq_true] at here
  cases split : (bytesOf keyword.spelling).toList with
  | nil =>
    rw [split] at here
    exact absurd here.1 Bool.false_ne_true
  | cons first more =>
    rw [split] at here
    exact ⟨first, more, rfl, here⟩

end Keyword

/-! ## Tokens that are no groups -/

namespace Grammar

variable {rest : Bytes}

/-- The text of an integer that is not negative. -/
theorem Lexeme.of_integer {number : Int64} {rest : Bytes} (nonneg : 0 ≤ number)
    (h : Breaks rest) :
    Lexeme (.integer number) (encode (integerText number).toList) rest := by
  have small : number.toInt < 2 ^ 63 := Int64.toInt_lt number
  obtain ⟨digits, whole⟩ := Int.eq_ofNat_of_zero_le (Int64.le_iff_toInt_le.1 nonneg)
  have text : (integerText number).toList = Nat.toDigits 10 digits := by
    unfold integerText
    rw [whole]
    exact Nat.toList_repr
  have allDigits : AllDigits (Nat.toDigits 10 digits) := fun char mem =>
    Nat.isDigit_of_mem_toDigits (by decide) (by decide) mem
  have written : value (encode (Nat.toDigits 10 digits)) = digits := by
    rw [value_encode allDigits, Nat.ofDigitChars_ten_toDigits]
  have again : Int64.ofNat (value (encode (Nat.toDigits 10 digits))) = number := by
    rw [written, ← Int64.toInt_inj, whole]
    exact Int64.toInt_ofNat_of_lt (by omega)
  rw [text, ← again]
  exact .integer (.of_allDigits Nat.toDigits_ne_nil allDigits) h.ends_digits h.not_startsFraction
    (by rw [written]; omega)

/-- The text of a real that is finite and has no sign. -/
theorem Lexeme.of_real {number : Binary64} {rest : Bytes} (positive : number.isNegative = false)
    (finite : number.isFinite = true) (h : Breaks rest) :
    Lexeme (.real number) (encode number.pointed) rest := by
  obtain ⟨decimal, text, nearest⟩ := Binary64.exists_decimal positive finite
  obtain ⟨whole, fraction, split, writes⟩ := decimal.exists_pointed
  have source : encode number.pointed = encode whole ++ ascii '.' :: encode fraction := by
    rw [text, split, Utf8.encode_append]
    rfl
  have places : (encode fraction).length = fraction.length := by
    rw [encode_digits writes.fraction_digits, List.length_map]
  have written : value (encode whole ++ encode fraction)
      = ofDigitChars 10 (whole ++ fraction) 0 := by
    rw [← Utf8.encode_append, value_encode (writes.whole_digits.append writes.fraction_digits)]
  have again : Binary64.nearestDecimal
      ⟨value (encode whole ++ encode fraction), -(encode fraction).length⟩ = number.magnitude := by
    rw [← nearest, written, places]
    unfold Binary64.nearestDecimal
    obtain ⟨numerator, denominator⟩ :
        (⟨ofDigitChars 10 (whole ++ fraction) 0, -fraction.length⟩ : Decimal).numerator = _
          ∧ (⟨ofDigitChars 10 (whole ++ fraction) 0, -fraction.length⟩ : Decimal).denominator = _ :=
      Decimal.ratio_of_neg rfl
    -- zeros may have been added, so the decimals differ, but not the fractions
    refine Binary64.nearest_congr (Binary64.denominator_pos _) (Binary64.denominator_pos _) ?_
    rw [numerator, denominator]
    exact writes.ratio
  rw [source]
  refine .real (.of_allDigits writes.whole_ne_nil writes.whole_digits)
    (.of_allDigits writes.fraction_ne_nil writes.fraction_digits) h.ends_digits ?_
  unfold Binary64.ofDecimal?
  dsimp only
  rw [again, if_pos (of_decide_eq_true finite), Binary64.ofMagnitude_magnitude positive]

/-- What can stand bare is a word. -/
theorem Word.of_bare {first : UInt8} {more : Bytes} (letter : isLetter first = true)
    (bytes : more.all isWordByte = true) (ends : Ends IsWordByte rest) :
    Word (first :: more) rest :=
  .cons ((isLetter_iff first).1 letter)
    (fun byte mem => (isWordByte_iff byte).1 (List.all_eq_true.1 bytes byte mem)) ends

/-- The text of a keyword. -/
theorem Lexeme.of_keyword (word : Keyword) (h : Breaks rest) :
    Lexeme (.keyword word) (encode word.spelling.toList) rest := by
  obtain ⟨first, more, split, letter, bytes⟩ := word.spelling_bytes
  refine .keyword ?_ ?_
  · rw [← Utf8.toList_bytesOf, split]
    exact .of_bare letter bytes h.ends_word
  · rw [Utf8.decode_encode, String.ofList_toList]
    exact word.lookup_spelling

/-- **The text of a name**, bare or in backticks. -/
theorem Lexeme.of_name {name : String} (inside : backtick ∉ name.toList) (h : Breaks rest) :
    Lexeme (.identifier name) (encode (Token.writtenName name)) rest := by
  have again : Utf8.decode (encode name.toList) = name := by
    rw [Utf8.decode_encode, String.ofList_toList]
  unfold Token.writtenName
  by_cases plain : isPlainName name = true
  · rw [if_pos plain]
    unfold isPlainName at plain
    have source := Utf8.toList_bytesOf name
    cases split : (bytesOf name).toList with
    | nil =>
      rw [split] at plain
      exact absurd plain Bool.false_ne_true
    | cons first more =>
      rw [split] at plain source
      dsimp only at plain
      rw [Bool.and_eq_true, Bool.and_eq_true, Option.isNone_iff_eq_none] at plain
      have word : Word (encode name.toList) rest :=
        source ▸ .of_bare plain.1.1 plain.1.2 h.ends_word
      have lexeme := Lexeme.identifier word (again.symm ▸ plain.2)
      rwa [again] at lexeme
  · rw [if_neg plain]
    have lexeme : Lexeme (.identifier (Utf8.decode (encode name.toList)))
        (ascii '\x60' :: (encode name.toList ++ [ascii '\x60'])) rest :=
      .name fun mem => inside ((Utf8.ascii_mem_encode (by decide)).1 mem)
    rw [again] at lexeme
    rw [Utf8.encode_cons, Utf8.encode_append]
    exact lexeme

/-- What is written for a character in quotes is read as its bytes. -/
theorem Quoted.escape_append (char : Char) {source content : Bytes}
    (others : Quoted (ascii apostrophe) source content) :
    Quoted (ascii apostrophe) (encode (Token.escape char) ++ source)
      (String.utf8EncodeChar char ++ content) := by
  unfold Token.escape
  split_ifs with backslash quote newline carriage tab backspace
  · subst backslash
    exact .escape others
  · subst quote
    exact .escape others
  · subst newline
    exact .escape others
  · subst carriage
    exact .escape others
  · subst tab
    exact .escape others
  · subst backspace
    exact .escape others
  · rw [Utf8.encode_cons, Utf8.encode_nil, List.append_nil]
    refine .of_plain (fun byte mem => ⟨?_, ?_⟩) others
    · rintro rfl
      exact quote ((Utf8.ascii_mem_encodeChar (by decide)).1 mem).symm
    · rintro rfl
      exact backslash ((Utf8.ascii_mem_encodeChar (by decide)).1 mem).symm

/-- **Escaped characters are read as those characters.** -/
theorem Quoted.of_escape (chars : List Char) :
    Quoted (ascii apostrophe) (encode (chars.flatMap Token.escape)) (encode chars) := by
  induction chars with
  | nil => exact .nil
  | cons char chars ih =>
    rw [List.flatMap_cons, Utf8.encode_append, Utf8.encode_cons]
    exact ih.escape_append char

/-- The text of a text. -/
theorem Lexeme.of_text (text : String) :
    Lexeme (.text text) (encode (Token.quoted text)) rest := by
  have lexeme : Lexeme (.text (Utf8.decode (encode text.toList))) _ rest :=
    .text (.inl rfl) (Quoted.of_escape text.toList)
  rw [Utf8.decode_encode, String.ofList_toList] at lexeme
  unfold Token.quoted
  rw [Utf8.encode_cons, Utf8.encode_append]
  exact lexeme

/-- **A token that is no group, and that its text can be read as.** A backtick
would end a name, a sign is no part of a number, and parentheses belong to
groups. -/
inductive Simple : Token → Prop where
  | identifier {name : String} (inside : backtick ∉ name.toList) : Simple (.identifier name)
  | keyword (word : Keyword) : Simple (.keyword word)
  | mark {mark : Delimiter} (single : mark ∈ [.comma, .equal, .dot]) : Simple (.delimiter mark)
  | integer {number : Int64} (nonneg : 0 ≤ number) : Simple (.integer number)
  | real {number : Binary64} (positive : number.isNegative = false)
      (finite : number.isFinite = true) : Simple (.real number)
  | text (text : String) : Simple (.text text)

/-- **What is written for a token is that token.** -/
theorem Lexeme.of_simple {token : Token} (simple : Simple token) (h : Breaks rest) :
    Lexeme token (encode token.chars) rest := by
  cases simple with
  | identifier inside =>
    rw [Token.chars]
    exact .of_name inside h
  | keyword word =>
    rw [Token.chars]
    exact .of_keyword word h
  | @mark mark single =>
    have one : encode [mark.symbol] = [ascii mark.symbol] := by
      cases mark <;> rfl
    rw [Token.chars, one]
    exact .mark single
  | integer nonneg =>
    rw [Token.chars]
    exact .of_integer nonneg h
  | real positive finite =>
    rw [Token.chars]
    exact .of_real positive finite h
  | text text =>
    rw [Token.chars]
    exact .of_text text

end Grammar

end TableDump
