import Mathlib
import TableDump.Proofs.Excerpts
import TableDump.Proofs.Unquoting

/-!
# A dump that is text is read as text

A dump is read byte by byte, and a character may be several bytes. If the dump is text, that makes
no difference. All bytes that the reading looks for are those of ASCII characters, no other character
has such a byte among its own, and so whatever is taken from the dump begins and ends between two
characters.

What is handed to the decoder is therefore always the encoding of some characters, wherever a token
is read (`Settings.HandsText`). That is also so for a quoted text, of which an escape takes one byte
at a time: a backslash in front of a character that is several bytes takes the meaning away from the
first of them, which has none, and the others follow by themselves (`Grammar.Quoted.unescaped`).

So a name is what is written, and a quoted text is what is written without the escapes, character by
character (`Grammar.Spells`), and statements are made of such tokens (`Grammar.IsTextStatement`).
-/

namespace TableDump

open Grammar
open InMemory (between)

/-! ## Encoded characters -/

namespace Utf8

/-- **An encoding has one reading.** -/
theorem encode_injective : Function.Injective encode := by
  intro chars chars' same
  have decoded := congrArg decode same
  rwa [decode_encode, decode_encode, String.ofList_inj] at decoded

/-- No character is encoded by nothing. -/
theorem encode_eq_nil {chars : List Char} (h : encode chars = []) : chars = [] :=
  encode_injective (h.trans encode_nil.symm)

/-- The encoding of a character begins with some byte. -/
theorem exists_lead (char : Char) : ∃ lead tail, String.utf8EncodeChar char = lead :: tail := by
  obtain ⟨lead, tail, bytes, -⟩ := decodeFirst_encodeChar char []
  exact ⟨lead, tail, bytes⟩

/-- If all bytes are ASCII, so are the characters. -/
theorem ascii_of_encode {chars : List Char} (h : ∀ byte ∈ encode chars, byte.toNat < 0x80)
    {char : Char} (mem : char ∈ chars) : char.toNat < 0x80 := by
  obtain ⟨lead, tail, bytes⟩ := exists_lead char
  have here : lead ∈ String.utf8EncodeChar char := bytes ▸ List.mem_cons_self
  by_contra large
  have inside : lead ∈ encode chars := List.mem_flatMap.2 ⟨char, mem, here⟩
  exact absurd (h lead inside) (Nat.not_lt.2 (le_of_mem_encodeChar (Nat.le_of_not_lt large) here))

/-- **Some bytes are text**: the encoding of some characters. -/
def IsText (bytes : Bytes) : Prop := ∃ chars, bytes = encode chars

/-- ASCII bytes are text. -/
theorem IsText.of_ascii {bytes : Bytes} (h : ∀ byte ∈ bytes, byte.toNat < 0x80) : IsText bytes :=
  ⟨_, (encode_decode_ascii h).symm⟩

/-- An ASCII character is one byte in front of the others. -/
theorem encode_cons_ascii {mark : Char} (small : mark.toNat < 0x80) (chars : List Char) :
    encode (mark :: chars) = ascii mark :: encode chars := by
  rw [encode_cons, encodeChar_ascii small, List.singleton_append]

/-- **A text comes apart at its ends and behind ASCII bytes.** -/
theorem exists_split {chars : List Char} {front back : Bytes} (split : encode chars = front ++ back)
    (ends : front = [] ∨ back = [] ∨ EndsAscii front) :
    ∃ before after, chars = before ++ after ∧ encode before = front ∧ encode after = back := by
  rcases ends with rfl | rfl | ends
  · exact ⟨[], chars, rfl, rfl, split⟩
  · exact ⟨chars, [], (List.append_nil chars).symm, split.trans (List.append_nil front), rfl⟩
  · exact ends.exists_characters split.symm

/-- A text that begins with the byte of an ASCII character begins with that character. -/
theorem exists_cons_of_ascii {mark : Char} (small : mark.toNat < 0x80) {chars : List Char}
    {back : Bytes} (split : encode chars = ascii mark :: back) :
    ∃ after, chars = mark :: after ∧ encode after = back := by
  have front : encode chars = [] ++ ascii mark :: back := split
  obtain ⟨before, after, rfl, none, rfl⟩ := exists_split_of_ascii small front
  obtain rfl := encode_eq_nil none
  exact ⟨after, rfl, rfl⟩

end Utf8

/-! ## Quoted texts -/

namespace Grammar

/-- The characters that are written with a letter behind a backslash. -/
def meanings : List (Char × Char) := [('b', '\x08'), ('t', '\t'), ('r', '\r'), ('n', '\n')]

/-- What a character stands for behind a backslash. -/
def meaning (char : Char) : Char := (meanings.lookup char).getD char

/-- **What characters between quotes stand for.** A backslash takes away the meaning of the
character behind it, or gives it one. -/
def unescaped : List Char → List Char
  | [] => []
  | '\\' :: char :: rest => meaning char :: unescaped rest
  | char :: rest => char :: unescaped rest

/-- The first byte of a character behind a backslash: of a letter that has a meaning there it makes
another character, and of any other character it stays the first byte. -/
theorem escaped_lead {char : Char} {lead : UInt8} {tail : Bytes}
    (bytes : String.utf8EncodeChar char = lead :: tail) :
    escaped lead :: tail = String.utf8EncodeChar (meaning char) := by
  by_cases special : char ∈ meanings.map Prod.fst
  · fin_cases special <;> obtain ⟨rfl, rfl⟩ := List.cons.inj bytes <;> rfl
  · have other : ∀ letter : Char, letter.toNat < 0x80 → letter ≠ char → lead ≠ ascii letter := by
      rintro letter small ne rfl
      exact ne ((Utf8.ascii_mem_encodeChar small).1 (bytes ▸ List.mem_cons_self))
    simp only [meanings, List.map_cons, List.map_nil, List.mem_cons, List.not_mem_nil, or_false,
      not_or] at special
    obtain ⟨b, t, r, n⟩ := special
    have plain : escaped lead = lead := by
      simp [escaped, escapes, List.lookup, beq_false_of_ne (other 'b' (by decide) (Ne.symm b)),
        beq_false_of_ne (other 't' (by decide) (Ne.symm t)),
        beq_false_of_ne (other 'r' (by decide) (Ne.symm r)),
        beq_false_of_ne (other 'n' (by decide) (Ne.symm n))]
    have plain' : meaning char = char := by
      simp [meaning, meanings, List.lookup, beq_false_of_ne b, beq_false_of_ne t,
        beq_false_of_ne r, beq_false_of_ne n]
    rw [plain, plain', bytes]

namespace Quoted

variable {quote : UInt8} {text source content : Bytes}

/-- Bytes that are no backslash stand for themselves. -/
theorem exists_behind (h : Quoted quote (text ++ source) content)
    (bytes : ∀ byte ∈ text, byte ≠ ascii '\\') :
    ∃ content', content = text ++ content' ∧ Quoted quote source content' := by
  induction text generalizing content with
  | nil => exact ⟨content, rfl, h⟩
  | cons byte text ih =>
    generalize written : byte :: text ++ source = input at h
    cases h with
    | nil => cases written
    | plain _ _ others =>
      obtain ⟨rfl, rfl⟩ := List.cons.inj written
      obtain ⟨content', rfl, further⟩ := ih others fun other mem =>
        bytes other (List.mem_cons_of_mem byte mem)
      exact ⟨content', rfl, further⟩
    | escape =>
      obtain ⟨rfl, -⟩ := List.cons.inj written
      exact absurd rfl (bytes _ List.mem_cons_self)

/-- **Between quotes a text is read character by character**, though an escape is one of bytes. -/
theorem unescaped {inner : List Char} (h : Quoted quote (Utf8.encode inner) content) :
    content = Utf8.encode (unescaped inner) := by
  fun_induction Grammar.unescaped inner generalizing content with
  | case1 =>
    cases h
    rfl
  | case2 char rest ih =>
    obtain ⟨lead, tail, bytes⟩ := Utf8.exists_lead char
    have written : Utf8.encode ('\\' :: char :: rest)
        = ascii '\\' :: lead :: (tail ++ Utf8.encode rest) := by
      rw [Utf8.encode_cons, Utf8.encode_cons, bytes]
      rfl
    have others : ∀ byte ∈ tail, byte ≠ ascii '\\' := by
      rintro _ mem rfl
      have same : '\\' = char :=
        (Utf8.ascii_mem_encodeChar (by decide)).1 (bytes ▸ List.mem_cons_of_mem lead mem)
      subst same
      obtain ⟨-, rfl⟩ := List.cons.inj bytes
      cases mem
    rw [written] at h
    cases h with
    | plain _ backslash_ne => exact absurd rfl backslash_ne
    | escape further =>
      obtain ⟨content, rfl, behind⟩ := further.exists_behind others
      rw [ih behind, Utf8.encode_cons, ← escaped_lead bytes]
      rfl
  | case3 char rest alone ih =>
    by_cases backslash : char = '\\'
    · subst backslash
      -- a backslash that is the last byte is no part of a quoted text
      obtain rfl : rest = [] := by
        rcases rest with _ | ⟨char, rest⟩
        · rfl
        · exact (alone char rest rfl rfl).elim
      generalize written : Utf8.encode ['\\'] = input at h
      cases h with
      | nil => cases written
      | plain _ backslash_ne => exact absurd (List.cons.inj written).1.symm backslash_ne
      | escape => cases (List.cons.inj written).2
    · have others : ∀ byte ∈ String.utf8EncodeChar char, byte ≠ ascii '\\' := by
        rintro _ mem rfl
        exact backslash ((Utf8.ascii_mem_encodeChar (by decide)).1 mem).symm
      rw [Utf8.encode_cons] at h ⊢
      obtain ⟨content, rfl, behind⟩ := h.exists_behind others
      rw [ih behind]

end Quoted

/-! ## Tokens and statements -/

/-- **The characters of a token that is no group**, from its first to its last. -/
inductive Spells : Token → (source : List Char) → Prop where
  | keyword {keyword : Keyword} {source : List Char}
      (found : Keyword.lookup (String.ofList source) = some keyword) :
      Spells (.keyword keyword) source
  /-- A bare name is what is written. -/
  | bare {source : List Char} (bare : '\x60' ∉ source) :
      Spells (.identifier (String.ofList source)) source
  /-- A name in backticks is what is written between them. -/
  | name {source : List Char} (inside : '\x60' ∉ source) :
      Spells (.identifier (String.ofList source)) ('\x60' :: (source ++ ['\x60']))
  /-- A quoted text is what is written between the quotes, without the escapes. -/
  | text {quote : Char} {source : List Char} (mark : quote = '\x27' ∨ quote = '"') :
      Spells (.text (String.ofList (unescaped source))) (quote :: (source ++ [quote]))
  | integer {number : Int64} {source : List Char} (ascii : ∀ char ∈ source, char.toNat < 0x80) :
      Spells (.integer number) source
  | real {number : Binary64} {source : List Char} (ascii : ∀ char ∈ source, char.toNat < 0x80) :
      Spells (.real number) source
  | mark {mark : Delimiter} : Spells (.delimiter mark) [mark.symbol]

mutual

/-- **A token in a text.** Where one ends is a matter of the bytes, and what it says, if it is no
group, of the characters. -/
inductive TextItem : Token → (source rest : List Char) → Prop where
  | lexeme {token : Token} {source rest : List Char}
      (lexeme : Lexeme token (Utf8.encode source) (Utf8.encode rest))
      (spelled : Spells token source) : TextItem token source rest
  | group {tokens : List Token} {blanks source rest : List Char}
      (leading : Blanks (Utf8.encode blanks) (Utf8.encode (source ++ ')' :: rest)))
      (inside : TextItems tokens source (')' :: rest)) :
      TextItem (.group (.delimiter .leftParen :: (tokens ++ [.delimiter .rightParen])))
        ('(' :: (blanks ++ (source ++ [')']))) rest

/-- Any number of tokens in a text, with blanks behind each of them. -/
inductive TextItems : List Token → (source rest : List Char) → Prop where
  | nil {rest : List Char} : TextItems [] [] rest
  | cons {token : Token} {tokens : List Token} {source blanks more rest : List Char}
      (first : TextItem token source (blanks ++ (more ++ rest)))
      (between : Blanks (Utf8.encode blanks) (Utf8.encode (more ++ rest)))
      (others : TextItems tokens more rest) :
      TextItems (token :: tokens) (source ++ (blanks ++ more)) rest

end

/-- **A statement in a text.** -/
inductive IsTextStatement : Statement → (source rest : List Char) → Prop where
  | closed {tokens : List Token} {source rest : List Char}
      (items : TextItems tokens source (';' :: rest)) :
      IsTextStatement { tokens } (source ++ [';']) rest
  | last {tokens : List Token} {source : List Char} (items : TextItems tokens source []) :
      IsTextStatement { tokens } source []

variable {maxDepth depth : Nat} {token : Token} {source rest : Bytes} {chars : List Char}

/-- A quote is an ASCII character. -/
theorem quote_small {mark : Char} (isQuote : mark = '\x27' ∨ mark = '"') :
    mark.toNat < 0x80 := by
  rcases isQuote with rfl | rfl <;> decide

/-- **What is between two marks** that are ASCII characters, and between no others. -/
theorem exists_between_marks {mark : Char} (small : mark.toNat < 0x80) {inner : Bytes}
    (written : Utf8.encode chars = ascii mark :: (inner ++ [ascii mark])) :
    ∃ between, chars = mark :: (between ++ [mark]) ∧ Utf8.encode between = inner := by
  obtain ⟨after, rfl, behind⟩ := Utf8.exists_cons_of_ascii small written
  obtain ⟨inside, others, rfl, inside_eq, none⟩ := Utf8.exists_split_of_ascii small behind
  obtain rfl := Utf8.encode_eq_nil none
  exact ⟨inside, rfl, inside_eq⟩

/-- **What a token that is no group says.** -/
theorem Lexeme.spells (h : Lexeme token (Utf8.encode chars) rest) : Spells token chars := by
  generalize written : Utf8.encode chars = part at h
  cases h with
  | keyword bytes found =>
    rw [← written, Utf8.decode_encode] at found
    exact .keyword found
  | identifier bytes =>
    rw [← written, Utf8.decode_encode]
    refine .bare fun mem => ?_
    have inside : ascii '\x60' ∈ Utf8.encode chars := (Utf8.ascii_mem_encode (by decide)).2 mem
    exact absurd (bytes.bytes _ (written ▸ inside)) (by decide)
  | integer bytes =>
    exact .integer fun char mem => Utf8.ascii_of_encode
      (fun byte inside => (bytes.bytes byte (written ▸ inside)).toNat_lt) mem
  | @real whole fraction _ _ before behind =>
    refine .real fun char mem => Utf8.ascii_of_encode (fun byte inside => ?_) mem
    rw [written] at inside
    rcases List.mem_append.1 inside with inside | inside
    · exact (before.bytes byte inside).toNat_lt
    · rcases List.mem_cons.1 inside with rfl | inside
      · decide
      · exact (behind.bytes byte inside).toNat_lt
  | text mark inside =>
    rcases mark with rfl | rfl
    · obtain ⟨inner, rfl, rfl⟩ := exists_between_marks (by decide) written
      rw [inside.unescaped, Utf8.decode_encode]
      exact .text (.inl rfl)
    · obtain ⟨inner, rfl, rfl⟩ := exists_between_marks (by decide) written
      rw [inside.unescaped, Utf8.decode_encode]
      exact .text (.inr rfl)
  | name inside =>
    obtain ⟨inner, rfl, rfl⟩ := exists_between_marks (by decide) written
    rw [Utf8.decode_encode]
    exact .name (mt (Utf8.ascii_mem_encode (by decide)).2 inside)
  | @mark mark _ single =>
    have small : mark.symbol.toNat < 0x80 := by
      fin_cases single <;> decide
    obtain ⟨after, rfl, none⟩ := Utf8.exists_cons_of_ascii small written
    obtain rfl := Utf8.encode_eq_nil none
    exact .mark

/-- **Some bytes of a text are some of its characters**, of which something holds together with the
characters behind them. -/
def InText (holds : (source rest : List Char) → Prop) (source rest : Bytes) : Prop :=
  ∀ chars, Utf8.encode chars = source ++ rest →
    ∃ part behind, chars = part ++ behind ∧ Utf8.encode part = source
      ∧ Utf8.encode behind = rest ∧ holds part behind

theorem Blanks.inText (h : Blanks source rest) :
    InText (fun part behind => Blanks (Utf8.encode part) (Utf8.encode behind)) source rest := by
  intro chars split
  have ends : source = [] ∨ rest = [] ∨ EndsAscii source := by
    by_cases last : rest = []
    · exact .inr (.inl last)
    · have way : Parts 0 0 0 source rest := h.parts
      exact (way.endsAscii last).imp_right .inr
  obtain ⟨part, behind, rfl, rfl, rfl⟩ := Utf8.exists_split split ends
  exact ⟨part, behind, rfl, rfl, rfl, h⟩

theorem Lexeme.inText (h : Lexeme token source rest) : InText (TextItem token) source rest := by
  intro chars split
  obtain ⟨part, behind, rfl, rfl, rfl⟩ := Utf8.exists_split split (.inr (.inr h.endsAscii))
  exact ⟨part, behind, rfl, rfl, rfl, .lexeme h h.spells⟩

/-- A group begins and ends with a character. -/
theorem InText.group {tokens : List Token} {blanks : Bytes}
    (leading : Blanks blanks (source ++ ascii ')' :: rest))
    (h : InText (TextItems tokens) source (ascii ')' :: rest)) :
    InText (TextItem (.group (.delimiter .leftParen :: (tokens ++ [.delimiter .rightParen]))))
      (ascii '(' :: (blanks ++ (source ++ [ascii ')']))) rest := by
  intro chars split
  have opens : '('.toNat < 0x80 := by decide
  have closes : ')'.toNat < 0x80 := by decide
  rw [List.cons_append, List.append_assoc, List.append_assoc] at split
  obtain ⟨after, rfl, opened⟩ := Utf8.exists_cons_of_ascii opens split
  obtain ⟨skipped, after, rfl, rfl, within, blank⟩ := leading.inText _ opened
  obtain ⟨part, after, rfl, rfl, closed, items⟩ := h _ within
  obtain ⟨after, rfl, rfl⟩ := Utf8.exists_cons_of_ascii closes closed
  rw [within, ← closed, ← Utf8.encode_append] at blank
  refine ⟨'(' :: (skipped ++ (part ++ [')'])), after, by simp, ?_, rfl, .group blank items⟩
  rw [Utf8.encode_cons_ascii opens, Utf8.encode_append, Utf8.encode_append,
    Utf8.encode_cons_ascii closes, Utf8.encode_nil]

/-- Tokens come one after the other. -/
theorem InText.cons {tokens : List Token} {blanks more : Bytes}
    (first : InText (TextItem token) source (blanks ++ (more ++ rest)))
    (between : Blanks blanks (more ++ rest)) (others : InText (TextItems tokens) more rest) :
    InText (TextItems (token :: tokens)) (source ++ (blanks ++ more)) rest := by
  intro chars split
  rw [List.append_assoc, List.append_assoc] at split
  obtain ⟨part, after, rfl, rfl, behind, item⟩ := first _ split
  obtain ⟨skipped, after, rfl, rfl, further, blank⟩ := between.inText _ behind
  obtain ⟨more, after, rfl, rfl, rfl, items⟩ := others _ further
  refine ⟨part ++ (skipped ++ more), after, by simp, ?_, rfl, .cons item blank items⟩
  rw [Utf8.encode_append, Utf8.encode_append]

mutual

/-- **A token is some of the characters of a text.** -/
theorem Item.inText {maxDepth : Nat} :
    ∀ {depth : Nat} {token : Token} {source rest : Bytes},
      Item maxDepth depth token source rest → InText (TextItem token) source rest
  | _, _, _, _, .lexeme lexeme => lexeme.inText
  | _, _, _, _, .group _ leading inside => InText.group leading (Items.inText inside)

/-- So are any number of tokens. -/
theorem Items.inText {maxDepth : Nat} :
    ∀ {depth : Nat} {tokens : List Token} {source rest : Bytes},
      Items maxDepth depth tokens source rest → InText (TextItems tokens) source rest
  | _, _, _, _, .nil => fun chars split => ⟨[], chars, rfl, rfl, split, .nil⟩
  | _, _, _, _, .cons first between others =>
    InText.cons (Item.inText first) between (Items.inText others)

end

/-- **A statement is some of the characters.** -/
theorem IsStatement.inText {statement : Statement} (h : IsStatement maxDepth statement source rest) :
    InText (IsTextStatement statement) source rest := by
  intro chars split
  cases h with
  | closed items =>
    rw [List.append_assoc] at split
    obtain ⟨part, after, rfl, rfl, closed, inText⟩ := items.inText _ split
    have closes : ';'.toNat < 0x80 := by decide
    obtain ⟨after, rfl, rfl⟩ := Utf8.exists_cons_of_ascii closes closed
    refine ⟨part ++ [';'], after, by simp, ?_, rfl, .closed inText⟩
    rw [Utf8.encode_append, Utf8.encode_cons_ascii closes, Utf8.encode_nil]
  | last ne_nil items =>
    obtain ⟨part, after, rfl, rfl, none, inText⟩ := items.inText _ split
    obtain rfl := Utf8.encode_eq_nil none
    exact ⟨part, [], rfl, rfl, rfl, .last inText⟩

end Grammar

/-! ## What is handed to the decoder -/

namespace Settings

variable (settings : Settings)

/-- **What hands some bytes to the decoder**: these bytes, and how the reading goes on with the text
that they are decoded to. -/
abbrev Handing := Scan (Bytes × (String → Scan Token))

/-- The bytes are decoded. -/
def decoded (handing : Handing) : Scan Token := do
  let (bytes, next) ← handing
  next (Utf8.decode bytes)

/-- A word is handed over as a whole. -/
def wordHanding : Handing := do
  let stop ← Scan.spanEnd isWordByte 1
  let word ← Scan.slice 0 stop
  return (word, fun word => do
    Scan.advance stop
    return match Keyword.lookup word with
      | some keyword => .keyword keyword
      | none => .identifier word)

/-- A number is handed over as a whole. The text is needed only to say that it is too large. -/
def numeralHanding (value? : Bytes → Option Token) (stop : Nat) : Handing := do
  let literal ← Scan.slice 0 stop
  return (literal, fun text =>
    match value? literal with
    | some token => do
      Scan.advance stop
      return token
    | none => settings.malformed (.invalidNumber text))

/-- Of a quoted text, what is between the quotes is handed over, without the escapes. -/
def textHanding (quote : UInt8) : Handing := do
  let bytes ← settings.quotedFrom quote ((← Scan.left) + 1) 1 []
  return (bytes, fun text => return .text text)

/-- Of a name in backticks, what is between them is handed over. -/
def nameHanding : Handing := do
  match ← Scan.find [ascii '\x60'] 1 with
  | none => settings.malformed .unterminatedName
  | some stop =>
    let name ← Scan.slice 1 stop
    return (name, fun name => do
      Scan.advance (stop + 1)
      return .identifier name)

/-- **What a token hands to the decoder** that is no group, and begins with `byte`. A punctuation
mark hands it nothing, and nor does what is no token. -/
def handing (byte : UInt8) : Handing :=
  if isLetter byte then wordHanding
  else if isDigit byte then numberThen settings.numeralHanding
  else if byte == ascii '\x27' || byte == ascii '"' then settings.textHanding byte
  else if byte == ascii '\x60' then settings.nameHanding
  else return ([], fun _ => settings.scanSimple byte)

theorem scanWord_eq : scanWord = decoded wordHanding := by
  unfold scanWord decoded wordHanding
  simp only [Scan.bind_assoc]
  rfl

theorem numeral_eq (value? : Bytes → Option Token) (stop : Nat) :
    settings.numeral value? stop = decoded (settings.numeralHanding value? stop) := by
  unfold numeral decoded numeralHanding
  simp only [Scan.bind_assoc]
  rfl

theorem scanNumber_eq : settings.scanNumber = decoded (numberThen settings.numeralHanding) := by
  unfold scanNumber decoded numberThen
  simp only [Scan.bind_assoc]
  congr 1
  funext whole
  congr 1
  funext fraction
  cases fraction with
  | false => exact settings.numeral_eq integer? whole
  | true =>
    rw [if_pos rfl, if_pos rfl, Scan.bind_assoc]
    exact congrArg (Scan.bind _) (funext fun stop => settings.numeral_eq real? stop)

theorem scanText_eq (quote : UInt8) :
    settings.scanText quote = decoded (settings.textHanding quote) := by
  unfold scanText decoded textHanding
  simp only [Scan.bind_assoc]
  rfl

theorem scanName_eq : settings.scanName = decoded settings.nameHanding := by
  unfold scanName decoded nameHanding
  rw [Scan.bind_assoc]
  congr 1
  funext stop
  cases stop with
  | none => rfl
  | some stop =>
    dsimp only
    rw [Scan.bind_assoc]
    rfl

/-- **A token that is no group is made of what it hands to the decoder**, and of nothing else that
is decoded. -/
theorem scanSimple_eq (byte : UInt8) :
    settings.scanSimple byte = decoded (settings.handing byte) := by
  unfold handing
  split_ifs with letter digit quote backtick
  · rw [scanSimple, if_pos letter, scanWord_eq]
  · rw [scanSimple, if_neg letter, if_pos digit, scanNumber_eq]
  · rw [scanSimple, if_neg letter, if_neg digit, if_pos quote, scanText_eq]
  · rw [scanSimple, if_neg letter, if_neg digit, if_neg quote, if_pos backtick, scanName_eq]
  · rfl

/-- **What is handed to the decoder**, if anything is, at a cursor. -/
def Hands {κ : Type} [Cursor κ] (handing : Handing) (cursor : κ) (holds : Bytes → Prop) : Prop :=
  ∀ bytes next cursor', handing.run cursor = (.ok (bytes, next), cursor') → holds bytes

namespace Hands

variable {κ α : Type} [Cursor κ] {cursor cursor' : κ} {holds : Bytes → Prop}

theorem pure {bytes : Bytes} (h : holds bytes) (next : String → Scan Token) :
    Hands (Pure.pure (bytes, next)) cursor holds := by
  intro bytes next' cursor' ran
  rw [Scan.run_pure] at ran
  cases ran
  exact h

/-- Behind a question. -/
theorem asked {first : Scan α} {value : α} {next : α → Handing}
    (h : first.run cursor = (.ok value, cursor')) (hnext : Hands (next value) cursor' holds) :
    Hands (first >>= next) cursor holds := by
  intro bytes next' cursor'' ran
  rw [Scan.run_bind_ok h] at ran
  exact hnext bytes next' cursor'' ran

/-- Nothing is handed over by a scan that fails. -/
theorem failed {handing : Handing} {fault : Fault}
    (h : handing.run cursor = (.error fault, cursor')) : Hands handing cursor holds := by
  intro bytes next cursor'' ran
  rw [h] at ran
  cases ran

end Hands

section InMemory

variable {before tail : Bytes} {byte : UInt8} {chars : List Char}

/-- A word is ASCII. -/
theorem hands_word (letter : IsLetter byte) :
    Hands wordHanding (between before (byte :: tail)) Utf8.IsText := by
  obtain ⟨run, rest, rfl, bytes, ends⟩ := exists_run isWordByte_iff tail
  have span : (Scan.spanEnd isWordByte 1).run (between before (byte :: (run ++ rest)))
      = (.ok (1 + run.length), _) :=
    run_spanEnd_run isWordByte_iff [byte] run rest rfl rfl bytes ends
  have piece : (Scan.slice 0 (1 + run.length)).run (between before (byte :: (run ++ rest)))
      = (.ok (byte :: run), _) :=
    Scan.run_slice [] (byte :: run) rest rfl rfl (by simp; omega)
  have word := Word.cons letter bytes ends
  refine .asked span (.asked piece (.pure ?_ _))
  exact .of_ascii fun other mem => (word.bytes other mem).toNat_lt

/-- A number is its literal. -/
theorem hands_numeral (value? : Bytes → Option Token) {literal rest : Bytes}
    (h : Utf8.IsText literal) :
    Hands (settings.numeralHanding value? literal.length) (between before (literal ++ rest))
      Utf8.IsText :=
  .asked (Scan.run_slice [] literal rest rfl rfl (Nat.zero_add literal.length)) (.pure h _)

/-- So it is ASCII too. -/
theorem hands_number (digit : IsDigit byte) :
    Hands (numberThen settings.numeralHanding) (between before (byte :: tail)) Utf8.IsText := by
  obtain ⟨run, rest, rfl, bytes, ends⟩ := exists_run isDigit_iff tail
  have whole := Digits.cons digit bytes
  by_cases point : StartsFraction rest
  · obtain ⟨first, more, rfl, hfirst⟩ := point
    obtain ⟨run', rest, rfl, bytes', ends'⟩ := exists_run isDigit_iff more
    have fraction := Digits.cons hfirst bytes'
    have split : byte :: (run ++ ascii '.' :: first :: (run' ++ rest))
        = byte :: run ++ ascii '.' :: (first :: run') ++ rest := by
      simp
    rw [split]
    unfold Hands
    rw [run_numberThen_fraction _ whole fraction ends']
    exact settings.hands_numeral real? ⟨_, (whole.encode_decode_point fraction).symm⟩
  · rw [← List.cons_append]
    unfold Hands
    rw [run_numberThen _ whole ends point]
    exact settings.hands_numeral integer? ⟨_, whole.encode_decode.symm⟩

/-- **A quoted text is text**, if its source is. -/
theorem hands_text {mark : Char} (isQuote : mark = '\x27' ∨ mark = '"')
    (written : Utf8.encode chars = tail) :
    Hands (settings.textHanding (ascii mark)) (between before (ascii mark :: tail))
      Utf8.IsText := by
  have other : ascii mark ≠ ascii '\\' :=
    quote_ne_backslash (isQuote.imp (congrArg ascii) (congrArg ascii))
  have small := quote_small isQuote
  refine .asked (Scan.run_left _) ?_
  rw [InMemory.left_between]
  rcases settings.quotedFrom_total before ((ascii mark :: tail).length + 1) other
    (show ascii mark :: tail = [ascii mark] ++ tail from rfl) (show [ascii mark].length = 1 from rfl)
    [] with ⟨source, content, rest, split, inside⟩ | failed
  · rw [split] at written
    obtain ⟨inner, after, rfl, rfl, rfl⟩ := Utf8.exists_split_of_ascii small written
    have enough : (Utf8.encode inner).length < (ascii mark :: tail).length + 1 := by
      rw [split]
      simp
      omega
    refine .asked (settings.run_quotedFrom before other
      (show ascii mark :: tail = [ascii mark] ++ _ by rw [split]; rfl)
      (show [ascii mark].length = 1 from rfl) inside enough []) (.pure ?_ _)
    exact ⟨unescaped inner, inside.unescaped⟩
  · exact .failed (Scan.run_bind_error failed)

/-- So is a name. -/
theorem hands_name (written : Utf8.encode chars = tail) :
    Hands settings.nameHanding (between before (ascii '\x60' :: tail)) Utf8.IsText := by
  by_cases ends : ascii '\x60' ∈ tail
  · obtain ⟨name, rest, rfl, inside⟩ := List.eq_append_cons_of_mem ends
    obtain ⟨inner, after, rfl, rfl, rfl⟩ := Utf8.exists_split_of_ascii (by decide) written
    refine .asked (Scan.run_find [ascii '\x60'] (Utf8.encode inner) (Utf8.encode after) rfl rfl
      (by simpa [List.singleton_infix_iff] using inside)) ?_
    exact .asked (Scan.run_slice [ascii '\x60'] (Utf8.encode inner) _ rfl rfl rfl)
      (.pure ⟨inner, rfl⟩ _)
  · refine .asked (Scan.run_find_none (by simp)
      (by simpa [List.singleton_infix_iff] using ends)) ?_
    exact .failed (settings.run_malformed .unterminatedName before _)

/-- **Wherever a token is read in a text**, it hands text to the decoder. The place may even be
between two bytes of a character. -/
theorem hands_between (split : Utf8.encode chars = before ++ byte :: tail) :
    Hands (settings.handing byte) (between before (byte :: tail)) Utf8.IsText := by
  unfold handing
  split_ifs with letter digit quote backtick
  · exact hands_word ((isLetter_iff byte).1 letter)
  · exact settings.hands_number ((isDigit_iff byte).1 digit)
  · obtain ⟨mark, isQuote, rfl⟩ : ∃ mark, (mark = '\x27' ∨ mark = '"') ∧ ascii mark = byte := by
      rcases Bool.or_eq_true _ _ ▸ quote with same | same
      · exact ⟨'\x27', .inl rfl, (beq_iff_eq.1 same).symm⟩
      · exact ⟨'"', .inr rfl, (beq_iff_eq.1 same).symm⟩
    obtain ⟨front, after, -, -, behind⟩ := Utf8.exists_split_of_ascii (quote_small isQuote) split
    exact settings.hands_text isQuote behind
  · obtain rfl := beq_iff_eq.1 backtick
    obtain ⟨front, after, -, -, behind⟩ := Utf8.exists_split_of_ascii (by decide) split
    exact settings.hands_name behind
  · exact .pure ⟨[], rfl⟩ _

end InMemory

/-! ## From a source -/

/-- **What goes by the parts of a reading holds of what hands something to the decoder.** -/
theorem Compositional.handing {settings : Settings} {holds : ∀ {α : Type}, Scan α → Prop}
    (h : settings.Compositional holds) (byte : UInt8) : holds (settings.handing byte) := by
  have numeral : ∀ value? stop, holds (settings.numeralHanding value? stop) :=
    fun value? stop => h.bind (h.slice 0 stop) fun literal => h.pure _
  unfold Settings.handing
  split_ifs
  · exact h.bind (h.spanEnd _ _) fun stop => h.bind (h.slice _ _) fun word => h.pure _
  · refine h.bind (h.spanEnd _ _) fun whole => h.bind (h.fractionAt _) fun fraction => ?_
    split
    · exact h.bind (h.spanEnd _ _) fun stop => numeral _ _
    · exact numeral _ _
  · exact h.bind h.left fun left => h.bind (h.quotedFrom _ _ _ _) fun bytes => h.pure _
  · refine h.bind (h.find _ _ _) fun stop => ?_
    split
    · exact h.malformed _
    · exact h.bind (h.slice _ _) fun name => h.pure _
  · exact h.pure _

/-- **Cursors that cannot be told apart** hand over the same. -/
theorem Hands.of_lockstep {κ κ' : Type} [Cursor κ] [Cursor κ'] {related : κ → κ' → Prop}
    (step : Lockstep Query.Sensible related) {first : κ} {second : κ'} (alike : related first second)
    {byte : UInt8} {holds : Bytes → Prop} (h : Hands (settings.handing byte) second holds) :
    Hands (settings.handing byte) first holds := by
  intro bytes next cursor' ran
  obtain ⟨same, -⟩ := step.run ((Compositional.asks settings).handing byte) alike
  rw [ran] at same
  exact h bytes next _ (Prod.ext same.symm rfl)

/-- **Anywhere in a text**, in memory. -/
theorem hands_bytesOf (text : String) {position : Nat} {byte : UInt8}
    (here : (bytesOf text)[position]? = some byte) :
    Hands (settings.handing byte) (InMemory.mk (bytesOf text) position) Utf8.IsText := by
  obtain ⟨inside, rfl⟩ := Array.getElem?_eq_some_iff.1 here
  have written := Utf8.toList_bytesOf text
  have split : (bytesOf text).toList
      = (bytesOf text).toList.take position
        ++ (bytesOf text)[position] :: (bytesOf text).toList.drop (position + 1) := by
    rw [← Array.getElem_toList inside, ← List.drop_eq_getElem_cons, List.take_append_drop]
  have place : InMemory.mk (bytesOf text) position
      = between ((bytesOf text).toList.take position)
        ((bytesOf text)[position] :: (bytesOf text).toList.drop (position + 1)) := by
    unfold between
    rw [← split, Array.toArray_toList, List.length_take, Array.length_toList,
      min_eq_left inside.le]
  rw [place]
  exact settings.hands_between (written.symm.trans split)

end Settings

/-! ## Whole readings -/

namespace Reader

/-- **All statements that a reader hands out are in a text**, and each ends where the call leaves
the reader. -/
def Copies {κ : Type} [Cursor κ] (text : String) (start : Reader κ) : Prop :=
  ∀ count statement place, (.ok (some statement), place) ∈ start.transcript count →
    ∃ before source rest, text.toList = before ++ (source ++ rest)
      ∧ place = (Utf8.encode (before ++ source)).length
      ∧ Underway start.settings.maxDepth 0 (Utf8.encode before) (Utf8.encode (source ++ rest))
      ∧ IsTextStatement statement source rest

/-- A statement that is read is some of the characters. -/
theorem exists_characters_of_run {settings : Settings} {text : String} {limit : Nat}
    {before rest : Bytes} (here : settings.Reached (bytesOf text).toList 0 limit before rest)
    {statement : Statement} {cursor : InMemory}
    (ran : settings.scanStatement.run (between before rest) = (.ok (some statement), cursor)) :
    ∃ front source behind, text.toList = front ++ (source ++ behind)
      ∧ cursor.position = (Utf8.encode (front ++ source)).length
      ∧ Underway settings.maxDepth 0 (Utf8.encode front) (Utf8.encode (source ++ behind))
      ∧ IsTextStatement statement source behind := by
  obtain ⟨_, rest, rfl, ⟨absurd, -⟩ | ⟨_, blanks, source, ⟨⟩, rfl, leading, first⟩, rfl⟩ :=
    (settings.recognizes_scanStatement before rest (some statement) cursor).1 ran
  · cases absurd
  · have underway : Underway settings.maxDepth 0 (before ++ blanks) (source ++ rest) := by
      refine Underway.blanks ?_ leading
      rw [← List.append_assoc]
      exact here.underway
    have split : before ++ blanks ++ (source ++ rest) = Utf8.encode text.toList := by
      rw [← Utf8.toList_bytesOf, ← here.split, List.append_assoc, List.append_assoc]
    obtain ⟨front, char, others, text_eq, front_eq, others_eq⟩ :=
      underway.exists_characters (List.append_ne_nil_of_left_ne_nil first.ne_nil rest) split
    obtain ⟨part, behind, chars_eq, rfl, rfl, inText⟩ := first.inText _ others_eq.symm
    rw [front_eq] at underway
    refine ⟨front, part, behind, by rw [text_eq, chars_eq], ?_, ?_, inText⟩
    · rw [Utf8.encode_append, ← front_eq, List.append_assoc]
      rfl
    · rw [Utf8.encode_append]
      exact underway

/-- **In memory**, from any place between statements. -/
theorem copies_between {settings : Settings} {text : String} {limit counted : Nat}
    {before rest : Bytes} (here : settings.Reached (bytesOf text).toList 0 limit before rest) :
    Copies text { cursor := between before rest, settings, statements := counted } := by
  intro count statement place mem
  obtain ⟨_, _, cursor, there, ran, rfl⟩ := exists_run_of_mem_transcript here (by simp) mem
  exact exists_characters_of_run there ran

/-- **A dump that is text is read as text.** Tokens that are no groups are made of the bytes that
they hand to the decoder. If the dump is text, these bytes are always the encoding of some
characters, in memory wherever the cursor stands, and after any calls to a cursor over a source that
does not fail, in whatever pieces it gives the dump. So a name is exactly what is written, and a
quoted text is exactly what is written between its quotes, without the escapes, which are taken
character by character. Each statement that is handed out is written so, in the characters that end
where the reader then stands. -/
theorem copies_text (text : String) (settings : Settings) :
    let bytes := bytesOf text
    (∀ byte, settings.scanSimple byte = Settings.decoded (settings.handing byte))
      ∧ (∀ position byte, bytes[position]? = some byte →
          Settings.Hands (settings.handing byte) (InMemory.mk bytes position) Utf8.IsText)
      ∧ (ofBytes bytes settings).Copies text
      ∧ ∀ script : List Reply, KeepsGiving bytes.size script →
          (∀ error, Reply.fail error ∈ script → error.kind = .interrupted) →
          (∀ (calls : List Call) (byte : UInt8),
              let stream := (Streaming.ofSource { bytes, script } settings.sizing).after calls
              bytes[stream.position]? = some byte →
              Settings.Hands (settings.handing byte) stream Utf8.IsText)
            ∧ (ofSource { bytes, script } settings).Copies text := by
  intro bytes
  have inMemory : (ofBytes bytes settings).Copies text := by
    have start : settings.Reached (bytesOf text).toList 0 (bytesOf text).toList.length []
        (bytesOf text).toList :=
      ⟨rfl, .nil, le_rfl⟩
    exact copies_between start
  refine ⟨settings.scanSimple_eq, fun position byte here => settings.hands_bytesOf text here,
    inMemory, fun script honest reliable => ⟨?_, ?_⟩⟩
  · intro calls byte stream here
    obtain ⟨position, mirrors, reliable⟩ :=
      (Streaming.Mirrors.ofSource settings.sizing honest).reliable_after reliable calls
    obtain rfl : stream.position = position := mirrors.position_eq
    exact .of_lockstep settings Streaming.lockstep ⟨mirrors, reliable⟩
      (settings.hands_bytesOf text here)
  · intro count statement place mem
    rw [Streaming.lockstep.transcript (alike_ofSource honest reliable settings) count] at mem
    exact inMemory count statement place mem

/-- A character of two bytes behind a backslash, another one in backticks, and a source that cuts
both of them apart. -/
theorem copies_text_cut :
    let text := "'\\é\\n' \x60ü\x60;"
    let script : List Reply := [.give 3, .fail .interruption, .give 5, .give 2]
    let reader := ofSource { bytes := bytesOf text, script }
    KeepsGiving (bytesOf text).size script
      ∧ (∀ error, Reply.fail error ∈ script → error.kind = .interrupted)
      ∧ reader.transcript 1 = [(.ok (some { tokens := [.text "é\n", .identifier "ü"] }), 13)]
      ∧ reader.Copies text := by
  intro text script reader
  have honest : KeepsGiving (bytesOf text).size script := by
    simp [KeepsGiving, script, text]
  have reliable : ∀ error, Reply.fail error ∈ script → error.kind = .interrupted := by
    simp [script]
  obtain ⟨-, -, -, fromSource⟩ := copies_text text {}
  exact ⟨honest, reliable, by decide +kernel, (fromSource script honest reliable).2⟩

end Reader

end TableDump
