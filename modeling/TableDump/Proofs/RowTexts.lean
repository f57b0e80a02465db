import Mathlib
import TableDump.Proofs.DecimalTexts
import TableDump.Row.JsonReader

/-!
# The text of a row tells which row it is

In the object that a row is written as, nothing says of which kind a value is. But a
text has quotes, only `null` begins with a letter, and of the numbers those are
reals that have a point or an exponent. So the text of a value tells the value, kind
included – except that the reals which JSON does not have are written as `null`.

What follows has to be kept apart as well. A string ends at the first quote that is
not escaped, and reading one shows where that is (`Json.readString_string`). The
other values have no comma, no brace and no quote in them, so they end where the
first of these stands. What is behind a member is then told from what is behind
another, member by member, and names may be repeated (`Json.behind_inj`).
-/

namespace TableDump

namespace Json

/-! ## Strings -/

/-- A hexadecimal digit is read as its value. -/
theorem hexValue?_hexDigit {value : Nat} (h : value < 16) :
    hexValue? (hexDigit value) = some value := by
  interval_cases value <;> rfl

/-- The number of a control character is read from its two digits. -/
theorem readUnit_control {value : Nat} (h : value < 0x20) (rest : List Char) :
    readUnit ('0' :: '0' :: hexDigit (value / 16) :: hexDigit (value % 16) :: rest)
      = .ok (value, rest) := by
  have zero : hexValue? '0' = some 0 := rfl
  rw [readUnit, zero, hexValue?_hexDigit (by omega), hexValue?_hexDigit (by omega)]
  dsimp only
  congr 2
  omega

/-- A control character is read from its number. -/
theorem readEscape_control {char : Char} (h : char.toNat < 0x20) (rest : List Char) :
    readEscape ('u' :: '0' :: '0' :: hexDigit (char.toNat / 16) :: hexDigit (char.toNat % 16)
      :: rest) = .ok (char, rest) := by
  show readNumbered _ = _
  unfold readNumbered
  rw [readUnit_control h]
  show ite _ _ _ = _
  rw [if_neg (by omega), if_neg (by omega), Char.ofNat_toNat]
  rfl

/-- **A character stands for itself, or its escape is read as it.** -/
theorem escape_cases (char : Char) :
    (escape char = [char] ∧ char ≠ '"' ∧ char ≠ '\\' ∧ ¬ char.toNat < 0x20)
      ∨ ∃ code, escape char = '\\' :: code
        ∧ ∀ rest, readEscape (code ++ rest) = .ok (char, rest) := by
  unfold escape
  split_ifs with quote backslash backspace formFeed lineFeed carriageReturn tab control
  case neg => exact .inl ⟨rfl, quote, backslash, control⟩
  all_goals refine .inr ⟨_, rfl, fun rest => ?_⟩
  all_goals first
    | exact readEscape_control ‹_› rest
    | subst char; rfl

/-- **A character is read as it was written**, in one round. -/
theorem readStringOnto_escape (fuel : Nat) (before : List Char) (char : Char) (rest : List Char) :
    readStringOnto (fuel + 1) before (escape char ++ rest)
      = readStringOnto fuel (char :: before) rest := by
  rcases escape_cases char with ⟨escaped, quote, backslash, control⟩ | ⟨code, escaped, read⟩
  · rw [escaped, List.singleton_append, readStringOnto, if_neg quote, if_neg backslash,
      if_neg control]
  · rw [escaped, List.cons_append, readStringOnto, if_neg (by decide), if_pos rfl, read]

/-- **A string is read as it was written**, and to its closing quote. -/
theorem readStringOnto_string {fuel : Nat} {chars : List Char} (enough : chars.length < fuel)
    (before rest : List Char) :
    readStringOnto fuel before (chars.flatMap escape ++ '"' :: rest)
      = .ok (String.ofList (before.reverse ++ chars), rest) := by
  induction chars generalizing fuel before with
  | nil =>
    obtain ⟨fuel, rfl⟩ := Nat.exists_eq_succ_of_ne_zero enough.ne'
    rw [List.flatMap_nil, List.nil_append, readStringOnto, if_pos rfl, List.append_nil]
  | cons char chars ih =>
    obtain ⟨fuel, rfl⟩ := Nat.exists_eq_succ_of_ne_zero (Nat.ne_of_gt (Nat.zero_lt_of_lt enough))
    rw [List.flatMap_cons, List.append_assoc, readStringOnto_escape,
      ih (Nat.lt_of_succ_lt_succ enough), List.reverse_cons, List.append_assoc]
    rfl

/-- No character is written by nothing. -/
theorem length_le_flatMap_escape (chars : List Char) :
    chars.length ≤ (chars.flatMap escape).length := by
  have some : ∀ char, 1 ≤ (escape char).length := by
    intro char
    rcases escape_cases char with ⟨escaped, -⟩ | ⟨code, escaped, -⟩ <;> simp [escaped]
  induction chars with
  | nil => exact le_rfl
  | cons char chars ih =>
    have := some char
    rw [List.flatMap_cons, List.length_append, List.length_cons]
    omega

theorem readString_string (text : String) (rest : List Char) :
    readString (text.toList.flatMap escape ++ '"' :: rest) = .ok (text, rest) := by
  have enough : text.toList.length < (text.toList.flatMap escape ++ '"' :: rest).length + 1 := by
    have := length_le_flatMap_escape text.toList
    rw [List.length_append]
    omega
  rw [readString, readStringOnto_string enough, List.reverse_nil, List.nil_append,
    String.ofList_toList]

theorem string_append (text : String) (rest : List Char) :
    string text ++ rest = '"' :: (text.toList.flatMap escape ++ '"' :: rest) := by
  simp [string]

/-- **So strings can be told from each other**, and from what follows. -/
theorem string_append_inj {text text' : String} {rest rest' : List Char}
    (same : string text ++ rest = string text' ++ rest') : text = text' ∧ rest = rest' := by
  rw [string_append, string_append] at same
  have read := congrArg readString (List.cons.inj same).2
  rw [readString_string, readString_string] at read
  exact Prod.mk.inj (Except.ok.inj read)

end Json

/-- JSON has this value: it is no infinity and no NaN. -/
def Cell.IsFinite : Cell → Prop
  | .real number => number.isFinite = true
  | _ => True

instance : DecidablePred Cell.IsFinite
  | .real number => inferInstanceAs (Decidable (number.isFinite = true))
  | .null | .integer _ | .text _ => isTrue trivial

namespace Json

variable {value value' : Cell} {column column' : String × Cell} {rest rest' : List Char}

/-! ## Values -/

/-- **What follows a value** in an object: a comma or the end. -/
def Closes (rest : List Char) : Prop := ∃ mark ∈ [',', '\x7d'], rest.head? = some mark

/-- What only texts have: a mark that closes, or a quote. -/
def IsPlain (char : Char) : Prop := char ∉ [',', '\x7d', '"']

/-- An integer is written by digits, behind a sign perhaps. -/
theorem mem_integerText {number : Int64} {char : Char} (mem : char ∈ (integerText number).toList) :
    char.isDigit = true ∨ char = '-' := by
  have digits : ∀ {number : Nat}, char ∈ number.repr.toList → char.isDigit = true :=
    fun mem => Decimal.allDigits_figures ⟨_, 0⟩ char mem
  rw [integerText, Int.repr_eq_if] at mem
  split_ifs at mem
  · exact .inl (digits mem)
  · rw [String.toList_append, List.mem_append] at mem
    exact mem.symm.imp digits (by simp)

/-- A finite real is written as a number, -/
theorem isNumeric_of_mem_real {number : Binary64} (finite : number.isFinite = true) {char : Char}
    (mem : char ∈ real number) : IsNumeric char := by
  obtain ⟨decimal, text, -⟩ := exists_decimal finite
  rw [text, List.mem_append] at mem
  rcases mem with sign | mem
  · refine .inr ?_
    split_ifs at sign <;> simp_all
  · exact isNumeric_decimal mem

/-- with a point or an exponent. -/
theorem mark_mem_real {number : Binary64} (finite : number.isFinite = true) :
    '.' ∈ real number ∨ 'e' ∈ real number := by
  obtain ⟨decimal, text, -⟩ := exists_decimal finite
  rw [text]
  exact (mark_mem_decimal decimal).imp (List.mem_append_right _) (List.mem_append_right _)

theorem isNumeric_of_mem_integerText {number : Int64} {char : Char}
    (mem : char ∈ (integerText number).toList) : IsNumeric char := by
  rcases mem_integerText mem with digit | rfl
  · exact .inl digit
  · exact .inr (by simp)

theorem isPlain_of_isNumeric {char : Char} (h : IsNumeric char) : IsPlain char := by
  intro mem
  simp only [List.mem_cons, List.not_mem_nil, or_false] at mem
  rcases mem with rfl | rfl | rfl <;> exact absurd h (by decide)

section Untexted

variable (finite : value.IsFinite) (noText : ∀ text, value ≠ .text text)
include finite noText

theorem isPlain_of_mem_cell {char : Char} (mem : char ∈ cell value) : IsPlain char := by
  cases value with
  | null =>
    rw [cell] at mem
    simp only [List.mem_cons, List.not_mem_nil, or_false] at mem
    rcases mem with rfl | rfl | rfl | rfl <;> simp [IsPlain]
  | integer number => exact isPlain_of_isNumeric (isNumeric_of_mem_integerText mem)
  | real number => exact isPlain_of_isNumeric (isNumeric_of_mem_real finite mem)
  | text text => exact absurd rfl (noText text)

/-- Only `null` has a letter for which there is no place in a number. -/
theorem letter_mem_cell : 'n' ∈ cell value ↔ value = .null := by
  have letter : ¬ IsNumeric 'n' := by decide
  cases value with
  | null => simp [cell]
  | integer number => simpa [cell] using fun mem => letter (isNumeric_of_mem_integerText mem)
  | real number => simpa [cell] using fun mem => letter (isNumeric_of_mem_real finite mem)
  | text text => exact absurd rfl (noText text)

/-- Only reals have a point or an exponent. -/
theorem mark_mem_cell :
    ('.' ∈ cell value ∨ 'e' ∈ cell value) ↔ ∃ number, value = .real number := by
  cases value with
  | null => simp [cell]
  | integer number =>
    simp only [reduceCtorEq, exists_false, iff_false]
    rintro (mem | mem) <;> exact absurd (mem_integerText mem) (by decide)
  | real number => simpa [cell] using mark_mem_real finite
  | text text => exact absurd rfl (noText text)

end Untexted

/-- **The text of a value tells the value**, if it is not one in quotes. -/
theorem cell_inj (finite : value.IsFinite) (finite' : value'.IsFinite)
    (noText : ∀ text, value ≠ .text text) (noText' : ∀ text, value' ≠ .text text)
    (same : cell value = cell value') : value = value' := by
  have null : value = .null ↔ value' = .null := by
    rw [← letter_mem_cell finite noText, same, letter_mem_cell finite' noText']
  have isReal : (∃ number, value = .real number) ↔ ∃ number, value' = .real number := by
    rw [← mark_mem_cell finite noText, same, mark_mem_cell finite' noText']
  cases value with
  | null => exact (null.1 rfl).symm
  | integer number =>
    cases value' with
    | null => exact null.2 rfl
    | integer number' => rw [Int64.toInt_inj.1 (Int.repr_injective (String.toList_inj.1 same))]
    | real number' => exact absurd (isReal.2 ⟨number', rfl⟩) (by simp)
    | text text => exact absurd rfl (noText' text)
  | real number =>
    obtain ⟨number', rfl⟩ := isReal.1 ⟨number, rfl⟩
    rw [real_inj finite finite' same]
  | text text => exact absurd rfl (noText text)

/-- A text does not begin like another value that is followed by a closing mark. -/
theorem string_append_ne (finite : value.IsFinite) (noText : ∀ text, value ≠ .text text)
    (closes : Closes rest) (text : String) (rest' : List Char) :
    cell value ++ rest ≠ string text ++ rest' := by
  intro same
  have quote : (cell value ++ rest).head? = some '"' := by
    rw [same]
    rfl
  rcases written : cell value with _ | ⟨first, others⟩
  · obtain ⟨mark, closing, here⟩ := closes
    rw [written, List.nil_append, here] at quote
    obtain rfl := Option.some.inj quote
    exact absurd closing (by decide)
  · rw [written] at quote
    obtain rfl := Option.some.inj quote
    have plain := isPlain_of_mem_cell finite noText (written ▸ List.mem_cons_self)
    exact plain (by simp)

/-- **A value can be told from what follows it.** -/
theorem cell_append_inj (finite : value.IsFinite) (finite' : value'.IsFinite)
    (closes : Closes rest) (closes' : Closes rest')
    (same : cell value ++ rest = cell value' ++ rest') : value = value' ∧ rest = rest' := by
  have ends : ∀ {rest : List Char}, Closes rest → ∀ char, rest.head? = some char →
      ¬ IsPlain char := by
    rintro rest ⟨mark, closing, here⟩ char first plain
    obtain rfl := Option.some.inj (here.symm.trans first)
    exact plain (List.mem_append_left ['"'] closing)
  by_cases isText : ∃ text, value = .text text <;> by_cases isText' : ∃ text, value' = .text text
  · obtain ⟨text, rfl⟩ := isText
    obtain ⟨text', rfl⟩ := isText'
    exact (string_append_inj same).imp_left (congrArg Cell.text)
  · obtain ⟨text, rfl⟩ := isText
    exact absurd same.symm (string_append_ne finite' (not_exists.1 isText') closes' text rest)
  · obtain ⟨text', rfl⟩ := isText'
    exact absurd same (string_append_ne finite (not_exists.1 isText) closes text' rest')
  · obtain ⟨text, rfl⟩ := append_inj_of_ends
      (fun _ => isPlain_of_mem_cell finite (not_exists.1 isText))
      (fun _ => isPlain_of_mem_cell finite' (not_exists.1 isText')) (ends closes) (ends closes') same
    exact ⟨cell_inj finite finite' (not_exists.1 isText) (not_exists.1 isText') text, rfl⟩

/-! ## Rows -/

/-- A member can be told from what follows it. -/
theorem member_append_inj (finite : column.2.IsFinite) (finite' : column'.2.IsFinite)
    (closes : Closes rest) (closes' : Closes rest')
    (same : member column ++ rest = member column' ++ rest') : column = column' ∧ rest = rest' := by
  unfold member at same
  rw [List.append_assoc, List.append_assoc] at same
  obtain ⟨name, behind⟩ := string_append_inj same
  obtain ⟨value, rfl⟩ := cell_append_inj finite finite' closes closes' (List.cons.inj behind).2
  exact ⟨Prod.ext name value, rfl⟩

/-- What is written behind a member, when these others are to come. -/
def behind : List (String × Cell) → List Char
  | [] => ['\x7d']
  | column :: columns => ',' :: (member column ++ behind columns)

theorem closes_behind (columns : List (String × Cell)) : Closes (behind columns) := by
  cases columns with
  | nil => exact ⟨_, by simp, rfl⟩
  | cons column columns => exact ⟨_, by simp, rfl⟩

/-- **The members to come can be read off**, one after the other. -/
theorem behind_inj {columns columns' : List (String × Cell)}
    (finite : ∀ column ∈ columns, column.2.IsFinite)
    (finite' : ∀ column ∈ columns', column.2.IsFinite)
    (same : behind columns = behind columns') : columns = columns' := by
  induction columns generalizing columns' with
  | nil =>
    rcases columns' with _ | ⟨column', columns'⟩
    · rfl
    · exact absurd (List.cons.inj same).1 (by decide)
  | cons column columns ih =>
    rcases columns' with _ | ⟨column', columns'⟩
    · exact absurd (List.cons.inj same).1 (by decide)
    · rw [List.forall_mem_cons] at finite finite'
      obtain ⟨rfl, others⟩ := member_append_inj finite.1 finite'.1 (closes_behind columns)
        (closes_behind columns') (List.cons.inj same).2
      rw [ih finite.2 finite'.2 others]

/-- A row is written as its first member and what is behind it. -/
theorem ofRow_cons (column : String × Cell) (columns : List (String × Cell)) :
    ofRow { cells := column :: columns } = '\x7b' :: (member column ++ behind columns) := by
  unfold ofRow
  refine congrArg _ ?_
  induction columns generalizing column with
  | nil => simp [behind, List.intercalate]
  | cons next columns ih =>
    rw [behind, ← ih next]
    simp [List.intercalate]

/-- **The characters that a row is written by tell the row.** -/
theorem ofRow_inj {row row' : Row} (finite : ∀ column ∈ row.cells, column.2.IsFinite)
    (finite' : ∀ column ∈ row'.cells, column.2.IsFinite) (same : ofRow row = ofRow row') :
    row = row' := by
  obtain ⟨columns⟩ := row
  obtain ⟨columns'⟩ := row'
  have quote : ∀ column columns, ofRow { cells := column :: columns } ≠ ofRow {} := by
    intro column columns same
    rw [ofRow_cons] at same
    exact absurd (List.cons.inj (List.cons.inj same).2).1 (by decide)
  rcases columns with _ | ⟨column, columns⟩ <;> rcases columns' with _ | ⟨column', columns'⟩
  · rfl
  · exact absurd same.symm (quote column' columns')
  · exact absurd same (quote column columns)
  · rw [ofRow_cons, ofRow_cons] at same
    exact congrArg Row.mk (behind_inj finite finite' (congrArg (',' :: ·) (List.cons.inj same).2))

end Json

/-- **The text of a row tells which row it is.** Take two rows of any columns in any
order, with any names, also the same name more than once, and with any values but
infinities and NaNs. If they are written as the same JSON text, they are the same:
the names in their order, and under each of them a value of the same kind, to the
last bit of a real and the last character of a text. -/
theorem Row.eq_of_toJson_eq {row row' : Row} (finite : ∀ value ∈ row.values, value.IsFinite)
    (finite' : ∀ value ∈ row'.values, value.IsFinite) (same : row.toJson = row'.toJson) :
    row = row' :=
  Json.ofRow_inj (List.forall_mem_map.1 finite) (List.forall_mem_map.1 finite')
    (String.ofList_injective same)

/-- Names that are escaped or repeated, and values that look like each other. -/
def confusingRow : Row where
  cells := [("a\"", .real ⟨0⟩), ("a\"", .real ⟨0x8000000000000000⟩), ("", .integer 0),
    ("\n", .null), ("b", .text "null")]

/-- Put together again from its columns and its values it is written as before, so it is the
same row. -/
theorem Row.eq_of_toJson_eq_confusingRow :
    let again : Row := { cells := confusingRow.columns.zip confusingRow.values }
    (∀ value ∈ confusingRow.values, value.IsFinite) ∧ (∀ value ∈ again.values, value.IsFinite)
      ∧ confusingRow.toJson
        = "\x7b\"a\\\"\":0.0,\"a\\\"\":-0.0,\"\":0,\"\\n\":null,\"b\":\"null\"\x7d"
      ∧ confusingRow.toJson = again.toJson ∧ confusingRow = again := by
  have finite : ∀ value ∈ confusingRow.values, value.IsFinite := by decide +kernel
  have same : confusingRow.toJson
      = (Row.mk (confusingRow.columns.zip confusingRow.values)).toJson := rfl
  exact ⟨finite, finite, by decide +kernel, same, Row.eq_of_toJson_eq finite finite same⟩

end TableDump
