import Mathlib
import TableDump.Proofs.Blanks

/-!
# Tokens that are no groups

For each kind of token, what its scan does in front of a token of that kind,
and that it fails where there is none. The first byte says which kind it must
be, so from these laws `Settings.scanSimple` recognizes the lexemes of the
grammar.

Words and numbers are runs, and take what a run takes. A quoted text is taken
apart at its escapes: up to the next one nothing has to be decided byte by byte
(`Grammar.Quoted.exists_plain`).
-/

namespace TableDump

open Grammar
open InMemory (between)

variable {before : Bytes}

namespace Grammar

/-! ## First bytes -/

/-- **A byte that a token may begin with**: it begins no blank, and ends no
list of tokens. -/
structure Leads (byte : UInt8) : Prop where
  space : ¬ IsSpace byte
  dash : byte ≠ ascii '-'
  slash : byte ≠ ascii '/'
  semicolon : byte ≠ ascii ';'
  rightParen : byte ≠ ascii ')'

instance : DecidablePred Leads := fun byte =>
  decidable_of_iff (¬ IsSpace byte ∧ byte ≠ ascii '-' ∧ byte ≠ ascii '/' ∧ byte ≠ ascii ';'
      ∧ byte ≠ ascii ')')
    ⟨fun ⟨space, dash, slash, semicolon, rightParen⟩ =>
        ⟨space, dash, slash, semicolon, rightParen⟩,
      fun h => ⟨h.space, h.dash, h.slash, h.semicolon, h.rightParen⟩⟩

/-- A class of bytes that contains none of those excluded. -/
theorem Leads.of_kind {kind : UInt8 → Prop} {byte : UInt8} (h : kind byte)
    (excluded : ∀ other ∈ [ascii ' ', ascii '\t', ascii '\r', ascii '\n', ascii '-', ascii '/',
      ascii ';', ascii ')'], ¬ kind other) : Leads byte := by
  have other : ∀ other ∈ [ascii ' ', ascii '\t', ascii '\r', ascii '\n', ascii '-', ascii '/',
      ascii ';', ascii ')'], byte ≠ other := by
    rintro other mem rfl
    exact excluded byte mem h
  refine ⟨?_, other _ (by simp), other _ (by simp), other _ (by simp), other _ (by simp)⟩
  rintro (rfl | rfl | rfl | rfl) <;> exact other _ (by simp) rfl

theorem IsLetter.leads {byte : UInt8} (h : IsLetter byte) : Leads byte ∧ byte ≠ ascii '(' :=
  ⟨.of_kind h (by decide +kernel), by rintro rfl; revert h; decide⟩

theorem IsDigit.leads {byte : UInt8} (h : IsDigit byte) : Leads byte ∧ byte ≠ ascii '(' :=
  ⟨.of_kind h (by decide +kernel), by rintro rfl; revert h; decide⟩

/-- **No lexeme is empty**, and it shows at its first byte that it is one. -/
theorem Lexeme.exists_leading {token : Token} {source rest : Bytes} (h : Lexeme token source rest) :
    ∃ byte tail, source = byte :: tail ∧ Leads byte ∧ byte ≠ ascii '(' := by
  cases h with
  | keyword bytes | identifier bytes =>
    obtain ⟨byte, head, letter⟩ := bytes.letter
    obtain ⟨tail, rfl⟩ := List.head?_eq_some_iff.1 head
    exact ⟨byte, tail, rfl, letter.leads⟩
  | integer digits =>
    obtain ⟨digit, tail, rfl⟩ := List.exists_cons_of_ne_nil digits.ne_nil
    exact ⟨digit, tail, rfl, (digits.bytes digit (by simp)).leads⟩
  | real whole =>
    obtain ⟨digit, tail, rfl⟩ := List.exists_cons_of_ne_nil whole.ne_nil
    exact ⟨digit, _, rfl, (whole.bytes digit (by simp)).leads⟩
  | text mark =>
    refine ⟨_, _, rfl, ?_⟩
    rcases mark with rfl | rfl <;> decide
  | name => exact ⟨_, _, rfl, by decide⟩
  | mark single =>
    refine ⟨_, _, rfl, ?_⟩
    fin_cases single <;> decide

/-- A quote of either kind is no backslash. -/
theorem quote_ne_backslash {quote : UInt8} (mark : quote = ascii '\x27' ∨ quote = ascii '"') :
    quote ≠ ascii '\\' := by
  rcases mark with rfl | rfl <;> decide

/-! ## Numbers from digits -/

/-- Digits are added up from the left or from the right. -/
theorem digitsValue_eq (digits : Bytes) : digitsValue digits = value digits := by
  unfold digitsValue value
  rw [Nat.ofDigits_eq_foldr, List.foldr_map, List.foldl_eq_foldr_reverse]
  congr 1
  funext digit sum
  rw [Nat.mul_comm, Nat.add_comm]
  rfl

/-- What an escape stands for is a matter of the table. -/
theorem unescape_eq (byte : UInt8) : Settings.unescape byte = escaped byte := by
  unfold Settings.unescape escaped escapes
  simp only [List.lookup]
  cases byte == ascii 'b'
  · cases byte == ascii 't'
    · cases byte == ascii 'r'
      · cases byte == ascii 'n' <;> rfl
      · rfl
    · rfl
  · rfl

/-- Bytes that need no attention stand for themselves. -/
theorem Quoted.of_plain {quote : UInt8} {text source content : Bytes}
    (bytes : ∀ byte ∈ text, byte ≠ quote ∧ byte ≠ ascii '\\')
    (others : Quoted quote source content) : Quoted quote (text ++ source) (text ++ content) := by
  induction text with
  | nil => exact others
  | cons byte text ih =>
    have here := bytes byte List.mem_cons_self
    exact .plain here.1 here.2 (ih fun other mem => bytes other (List.mem_cons_of_mem byte mem))

/-- **The inside of a quoted text up to its first escape**, if it has one. -/
theorem Quoted.exists_plain {quote : UInt8} {source content : Bytes}
    (h : Quoted quote source content) :
    ∃ text, (∀ byte ∈ text, byte ≠ quote ∧ byte ≠ ascii '\\')
      ∧ ((source = text ∧ content = text)
        ∨ ∃ byte source' content', source = text ++ ascii '\\' :: byte :: source'
            ∧ content = text ++ escaped byte :: content' ∧ Quoted quote source' content') := by
  induction h with
  | nil => exact ⟨[], by simp, .inl ⟨rfl, rfl⟩⟩
  | @plain byte source content quote_ne backslash_ne others ih =>
    obtain ⟨text, bytes, split⟩ := ih
    refine ⟨byte :: text, ?_, ?_⟩
    · rintro other (_ | ⟨_, mem⟩)
      · exact ⟨quote_ne, backslash_ne⟩
      · exact bytes other mem
    · rcases split with ⟨rfl, rfl⟩ | ⟨escape, source', content', rfl, rfl, further⟩
      · exact .inl ⟨rfl, rfl⟩
      · exact .inr ⟨escape, source', content', rfl, rfl, further⟩
  | @escape byte source content others ih =>
    exact ⟨[], by simp, .inr ⟨byte, source, content, rfl, rfl, others⟩⟩

/-- A digit and all digits behind it. -/
theorem Digits.cons {digit : UInt8} {run : Bytes} (h : IsDigit digit)
    (bytes : ∀ byte ∈ run, IsDigit byte) : Digits (digit :: run) where
  ne_nil := List.cons_ne_nil digit run
  bytes := by
    rintro byte (_ | ⟨_, mem⟩)
    · exact h
    · exact bytes byte mem

/-- A letter and all word bytes behind it. -/
theorem Word.cons {first : UInt8} {run rest : Bytes} (letter : IsLetter first)
    (bytes : ∀ byte ∈ run, IsWordByte byte) (ends : Ends IsWordByte rest) :
    Word (first :: run) rest where
  letter := ⟨first, rfl, letter⟩
  bytes := by
    rintro byte (_ | ⟨_, mem⟩)
    · exact .inl letter
    · exact bytes byte mem
  ends := ends

/-- Digits are ASCII. -/
theorem IsDigit.toNat_lt {byte : UInt8} (h : IsDigit byte) : byte.toNat < 0x80 :=
  lt_of_le_of_lt (UInt8.le_iff_toNat_le.1 h.2) (by decide)

/-- So the text of digits is written by them, -/
theorem Digits.encode_decode {digits : Bytes} (h : Digits digits) :
    Utf8.encode (Utf8.decode digits).toList = digits :=
  Utf8.encode_decode_ascii fun byte mem => (h.bytes byte mem).toNat_lt

/-- also with a point among them. -/
theorem Digits.encode_decode_point {whole fraction : Bytes} (h : Digits whole)
    (behind : Digits fraction) :
    Utf8.encode (Utf8.decode (whole ++ ascii '.' :: fraction)).toList
      = whole ++ ascii '.' :: fraction := by
  refine Utf8.encode_decode_ascii fun byte mem => ?_
  rcases List.mem_append.1 mem with mem | mem
  · exact (h.bytes byte mem).toNat_lt
  · rcases List.mem_cons.1 mem with rfl | mem
    · decide
    · exact (behind.bytes byte mem).toNat_lt

/-- A digit is no letter. -/
theorem IsDigit.not_letter {byte : UInt8} (h : IsDigit byte) : ¬ IsLetter byte := by
  simp only [IsDigit, IsLetter, InRange, UInt8.le_iff_toNat_le] at *
  have : (ascii '0').toNat = 48 ∧ (ascii '9').toNat = 57 ∧ (ascii 'A').toNat = 65
      ∧ (ascii 'a').toNat = 97 := by decide
  omega

/-! ## What lexemes begin with -/

/-- **The bytes that lexemes begin with.** -/
def Begins (byte : UInt8) : Prop :=
  IsLetter byte ∨ IsDigit byte ∨ (byte = ascii '\x27' ∨ byte = ascii '"') ∨ byte = ascii '\x60'
    ∨ byte = ascii ',' ∨ byte = ascii '=' ∨ byte = ascii '.'

theorem Lexeme.begins {token : Token} {byte : UInt8} {source rest : Bytes}
    (h : Lexeme token (byte :: source) rest) : Begins byte := by
  generalize written : byte :: source = bytes at h
  cases h with
  | keyword bytes | identifier bytes =>
    obtain ⟨first, head, letter⟩ := bytes.letter
    rw [← written] at head
    obtain rfl := Option.some.inj head
    exact .inl letter
  | integer digits =>
    exact .inr (.inl (digits.bytes byte (written ▸ List.mem_cons_self)))
  | real whole =>
    obtain ⟨digit, tail, rfl⟩ := List.exists_cons_of_ne_nil whole.ne_nil
    obtain ⟨rfl, -⟩ := List.cons.inj written
    exact .inr (.inl (whole.bytes byte List.mem_cons_self))
  | text mark =>
    obtain ⟨rfl, -⟩ := List.cons.inj written
    exact .inr (.inr (.inl mark))
  | name =>
    obtain ⟨rfl, -⟩ := List.cons.inj written
    exact .inr (.inr (.inr (.inl rfl)))
  | mark single =>
    obtain ⟨rfl, -⟩ := List.cons.inj written
    fin_cases single
    · exact .inr (.inr (.inr (.inr (.inl rfl))))
    · exact .inr (.inr (.inr (.inr (.inr (.inl rfl)))))
    · exact .inr (.inr (.inr (.inr (.inr (.inr rfl)))))

/-- With each of them one does. -/
theorem Begins.exists_lexeme {byte : UInt8} (h : Begins byte) :
    ∃ token source rest, Lexeme token (byte :: source) rest := by
  rcases h with letter | digit | mark | rfl | rfl | rfl | rfl
  · have word : Word [byte] [] := .cons letter (by simp) (by simp [Ends])
    rcases found : Keyword.lookup (Utf8.decode [byte]) with _ | keyword
    · exact ⟨_, [], [], .identifier word found⟩
    · exact ⟨_, [], [], .keyword word found⟩
  · have small : value [byte] < 2 ^ 63 := by
      have := byte.toNat_lt
      simp only [value, List.reverse_singleton, List.map_singleton, Nat.ofDigits_singleton]
      omega
    have nothing : ¬ StartsFraction [] := by
      rintro ⟨_, _, ⟨⟩, -⟩
    exact ⟨_, [], [], .integer (.cons digit (by simp)) (by simp [Ends]) nothing small⟩
  · exact ⟨_, [byte], [], .text mark .nil⟩
  · exact ⟨_, [ascii '\x60'], [], .name List.not_mem_nil⟩
  · exact ⟨_, [], [], Lexeme.mark (show Delimiter.comma ∈ _ by simp)⟩
  · exact ⟨_, [], [], Lexeme.mark (show Delimiter.equal ∈ _ by simp)⟩
  · exact ⟨_, [], [], Lexeme.mark (show Delimiter.dot ∈ _ by simp)⟩

end Grammar

namespace Settings

variable (settings : Settings)

/-- **Either a lexeme stands here, or something that is none**, and then the scan fails with a
fault that says what it is, and stays. -/
def Decides (scan : Scan Token) (before input : Bytes) : Prop :=
  (∃ token source rest, input = source ++ rest ∧ Lexeme token source rest)
    ∨ ∃ cause, Unreadable cause input ∧ settings.Names cause input
      ∧ scan.run (between before input)
        = (.error (settings.faultAt cause before input), between before input)

/-! ## Words -/

theorem run_scanWord {word rest : Bytes} {token : Token} (h : Word word rest)
    (found : (∃ keyword, Keyword.lookup (Utf8.decode word) = some keyword
        ∧ token = .keyword keyword)
      ∨ Keyword.lookup (Utf8.decode word) = none ∧ token = .identifier (Utf8.decode word)) :
    scanWord.run (between before (word ++ rest))
      = (.ok token, between (before ++ word) rest) := by
  obtain ⟨first, hfirst, -⟩ := h.letter
  obtain ⟨tail, rfl⟩ : ∃ tail, word = first :: tail := by
    cases word <;> simp_all
  have span : (Scan.spanEnd isWordByte 1).run (between before (first :: tail ++ rest))
      = (.ok (1 + tail.length), _) :=
    run_spanEnd_run isWordByte_iff [first] tail rest rfl rfl
      (fun byte mem => h.bytes byte (List.mem_cons_of_mem first mem)) h.ends
  have piece : (Scan.slice 0 (1 + tail.length)).run (between before (first :: tail ++ rest))
      = (.ok (first :: tail), _) :=
    Scan.run_slice [] (first :: tail) rest rfl rfl (by simp; omega)
  unfold scanWord
  rw [Scan.run_bind_ok span, Scan.run_bind_ok piece]
  dsimp only
  rw [Scan.run_bind_ok (Scan.run_advance _ _ rfl (by simp; omega)), Scan.run_pure]
  rcases found with ⟨keyword, found, rfl⟩ | ⟨found, rfl⟩ <;> rw [found]

/-! ## Numbers -/

theorem run_numeral {value? : Bytes → Option Token} {literal rest : Bytes} {token : Token}
    (h : value? literal = some token) :
    (settings.numeral value? literal.length).run (between before (literal ++ rest))
      = (.ok token, between (before ++ literal) rest) := by
  have piece : (Scan.slice 0 literal.length).run (between before (literal ++ rest))
      = (.ok literal, _) :=
    Scan.run_slice [] literal rest rfl rfl (Nat.zero_add literal.length)
  unfold numeral
  rw [Scan.run_bind_ok piece, h]
  dsimp only
  rw [Scan.run_bind_ok (Scan.run_advance _ _ rfl rfl), Scan.run_pure]

/-- Too large a number is malformed. -/
theorem run_numeral_none {value? : Bytes → Option Token} {literal rest : Bytes}
    (h : value? literal = none) :
    (settings.numeral value? literal.length).run (between before (literal ++ rest))
      = (.error (settings.faultAt (.invalidNumber (Utf8.decode literal)) before (literal ++ rest)),
          between before (literal ++ rest)) := by
  have piece : (Scan.slice 0 literal.length).run (between before (literal ++ rest))
      = (.ok literal, _) :=
    Scan.run_slice [] literal rest rfl rfl (Nat.zero_add literal.length)
  unfold numeral
  rw [Scan.run_bind_ok piece, h]
  exact settings.run_malformed _ before _

/-- A byte behind some others. -/
theorem run_peek_behind {input : Bytes} (front rest : Bytes) {start : Nat} (offset : Nat)
    (split : input = front ++ rest) (h : front.length + offset = start) :
    (Scan.peek start).run (between before input) = (.ok rest[offset]?, between before input) := by
  subst split h
  rw [Scan.run_peek, List.getElem?_append_right (Nat.le_add_right _ _), Nat.add_sub_cancel_left]

theorem run_fractionAt (before : Bytes) {input : Bytes} (front rest : Bytes) {start : Nat}
    (split : input = front ++ rest) (h : front.length = start) :
    ∃ found, (fractionAt start).run (between before input) = (.ok found, between before input)
      ∧ (found = true ↔ StartsFraction rest) := by
  unfold fractionAt
  rw [Scan.run_bind_ok (run_peek_behind front rest 0 split h)]
  split
  case isTrue point =>
    rw [Scan.run_bind_ok (run_peek_behind front rest 1 split (by rw [h])), Scan.run_pure]
    refine ⟨_, rfl, ?_⟩
    rcases rest with _ | ⟨byte, _ | ⟨digit, more⟩⟩
    · simp at point
    · simp [StartsFraction]
    · obtain rfl : byte = ascii '.' := by simpa using point
      simp [StartsFraction, isDigit_iff]
  case isFalse point =>
    rw [Scan.run_pure]
    refine ⟨_, rfl, ?_⟩
    constructor
    · simp
    · rintro ⟨digit, more, rfl, -⟩
      simp at point

/-- **A number is measured, and then something is done with it**: with what it is to be read as,
and with where it ends. -/
def numberThen {β : Type} (next : (Bytes → Option Token) → Nat → Scan β) : Scan β := do
  let whole ← Scan.spanEnd isDigit 1
  if ← fractionAt whole then next real? (← Scan.spanEnd isDigit (whole + 2))
  else next integer? whole

section Measured

variable {β : Type} (next : (Bytes → Option Token) → Nat → Scan β)

/-- A run of digits is measured. -/
theorem run_numberThen {digits rest : Bytes} (h : Digits digits) (ends : Ends IsDigit rest)
    (whole : ¬ StartsFraction rest) :
    (numberThen next).run (between before (digits ++ rest))
      = (next integer? digits.length).run (between before (digits ++ rest)) := by
  obtain ⟨first, tail, rfl⟩ := List.exists_cons_of_ne_nil h.ne_nil
  have span : (Scan.spanEnd isDigit 1).run (between before (first :: tail ++ rest))
      = (.ok (1 + tail.length), _) :=
    run_spanEnd_run isDigit_iff [first] tail rest rfl rfl
      (fun byte mem => h.bytes byte (List.mem_cons_of_mem first mem)) ends
  obtain ⟨found, asked, found_iff⟩ := run_fractionAt before (first :: tail) rest rfl rfl
  rw [List.length_cons, Nat.add_comm] at asked ⊢
  unfold numberThen
  rw [Scan.run_bind_ok span, Scan.run_bind_ok asked,
    if_neg fun positive => whole (found_iff.1 positive)]

/-- Two runs of digits are, with a point between them. -/
theorem run_numberThen_fraction {whole fraction rest : Bytes} (hwhole : Digits whole)
    (hfraction : Digits fraction) (ends : Ends IsDigit rest) :
    (numberThen next).run (between before (whole ++ ascii '.' :: fraction ++ rest))
      = (next real? (whole ++ ascii '.' :: fraction).length).run
          (between before (whole ++ ascii '.' :: fraction ++ rest)) := by
  obtain ⟨first, tail, rfl⟩ := List.exists_cons_of_ne_nil hwhole.ne_nil
  obtain ⟨digit, digits, rfl⟩ := List.exists_cons_of_ne_nil hfraction.ne_nil
  have point : Ends IsDigit (ascii '.' :: digit :: digits ++ rest) := by
    rintro _ ⟨⟩
    decide
  have starts : StartsFraction (ascii '.' :: digit :: digits ++ rest) :=
    ⟨digit, digits ++ rest, rfl, hfraction.bytes digit (by simp)⟩
  -- the questions look at the same input from different places in it
  generalize literal : first :: tail ++ ascii '.' :: digit :: digits ++ rest = input
  have span : (Scan.spanEnd isDigit 1).run (between before input) = (.ok (1 + tail.length), _) :=
    run_spanEnd_run isDigit_iff [first] tail (ascii '.' :: digit :: digits ++ rest)
      (by simp [← literal]) rfl
      (fun byte mem => hwhole.bytes byte (List.mem_cons_of_mem first mem)) point
  have spanBehind : (Scan.spanEnd isDigit (1 + tail.length + 2)).run (between before input)
      = (.ok (1 + tail.length + 2 + digits.length), _) :=
    run_spanEnd_run isDigit_iff (first :: tail ++ [ascii '.', digit]) digits rest
      (by simp [← literal]) (by simp; omega)
      (fun byte mem => hfraction.bytes byte (List.mem_cons_of_mem digit mem)) ends
  obtain ⟨found, asked, found_iff⟩ : ∃ found, (fractionAt (1 + tail.length)).run
        (between before input) = (.ok found, _) ∧ _ :=
    run_fractionAt before (first :: tail) (ascii '.' :: digit :: digits ++ rest)
      (by simp [← literal]) (by simp; omega)
  unfold numberThen
  rw [Scan.run_bind_ok span, Scan.run_bind_ok asked, if_pos (found_iff.2 starts),
    Scan.run_bind_ok spanBehind]
  congr 2
  simp
  omega

end Measured

theorem run_scanNumber {digits rest : Bytes} (h : Digits digits) (ends : Ends IsDigit rest)
    (whole : ¬ StartsFraction rest) :
    settings.scanNumber.run (between before (digits ++ rest))
      = (settings.numeral integer? digits.length).run (between before (digits ++ rest)) :=
  run_numberThen settings.numeral h ends whole

theorem run_scanNumber_fraction {whole fraction rest : Bytes} (hwhole : Digits whole)
    (hfraction : Digits fraction) (ends : Ends IsDigit rest) :
    settings.scanNumber.run (between before (whole ++ ascii '.' :: fraction ++ rest))
      = (settings.numeral real? (whole ++ ascii '.' :: fraction).length).run
          (between before (whole ++ ascii '.' :: fraction ++ rest)) :=
  run_numberThen_fraction settings.numeral hwhole hfraction ends

/-- What a run of digits writes. -/
theorem integer?_eq (digits : Bytes) :
    integer? digits
      = if value digits < 2 ^ 63 then some (.integer (Int64.ofNat (value digits))) else none := by
  unfold integer?
  rw [digitsValue_eq]
  rfl

/-- What two runs of digits write. -/
theorem real?_eq {whole fraction : Bytes} (h : Digits whole) :
    real? (whole ++ ascii '.' :: fraction)
      = (Binary64.ofDecimal? ⟨value (whole ++ fraction), -fraction.length⟩).map .real := by
  have point : Ends IsDigit (ascii '.' :: fraction) := by
    rintro _ ⟨⟩
    decide
  unfold real?
  dsimp only
  rw [takeWhile_run isDigit_iff h.bytes point, dropWhile_run isDigit_iff h.bytes point,
    List.drop_succ_cons, List.drop_zero, digitsValue_eq]

/-- **A number is read, or is too large.** -/
theorem scanNumber_total (before : Bytes) {digit : UInt8} {tail : Bytes} (h : IsDigit digit) :
    settings.Decides settings.scanNumber before (digit :: tail) := by
  obtain ⟨run, rest, rfl, bytes, ends⟩ := exists_run isDigit_iff tail
  have whole := Digits.cons h bytes
  by_cases point : StartsFraction rest
  · obtain ⟨first, more, rfl, hfirst⟩ := point
    obtain ⟨run', rest, rfl, bytes', ends'⟩ := exists_run isDigit_iff more
    have fraction := Digits.cons hfirst bytes'
    have split : digit :: (run ++ ascii '.' :: first :: (run' ++ rest))
        = digit :: run ++ ascii '.' :: (first :: run') ++ rest := by
      simp
    rw [split]
    rcases nearest : Binary64.ofDecimal?
        ⟨value (digit :: run ++ first :: run'), -(first :: run').length⟩ with _ | number
    · refine .inr ⟨_, .real whole fraction (whole.encode_decode_point fraction) ends' nearest,
        settings.names_of_ne (by simp), ?_⟩
      rw [settings.run_scanNumber_fraction whole fraction ends']
      exact settings.run_numeral_none (by rw [real?_eq whole, nearest]; rfl)
    · exact .inl ⟨_, _, rest, rfl, .real whole fraction ends' nearest⟩
  · rw [← List.cons_append]
    by_cases fits : value (digit :: run) < 2 ^ 63
    · exact .inl ⟨_, _, rest, rfl, .integer whole ends point fits⟩
    · refine .inr ⟨_, .integer whole whole.encode_decode ends point (Nat.le_of_not_lt fits),
        settings.names_of_ne (by simp), ?_⟩
      rw [settings.run_scanNumber whole ends point]
      exact settings.run_numeral_none (by rw [integer?_eq, if_neg fits])

/-! ## Quoted texts -/

section Quoted

variable {quote : UInt8}

/-- One round: up to the closing quote. -/
theorem run_quotedFrom_close {input opened text rest : Bytes} {start : Nat}
    (split : input = opened ++ (text ++ quote :: rest)) (hstart : opened.length = start)
    (inside : ∀ byte ∈ text, byte ≠ quote ∧ byte ≠ ascii '\\') (fuel : Nat) (found : Bytes) :
    (settings.quotedFrom quote (fuel + 1) start found).run (between before input)
      = (.ok (found.reverse ++ text),
          between (before ++ (opened ++ (text ++ [quote]))) rest) := by
  have piece : (Scan.slice start (start + text.length)).run (between before input)
      = (.ok text, _) :=
    Scan.run_slice opened text (quote :: rest) split hstart rfl
  have mark : (Scan.peek (start + text.length)).run (between before input)
      = (.ok (some quote), _) :=
    run_peek_behind (opened ++ text) (quote :: rest) 0 (by simp [split]) (by simp [hstart])
  unfold quotedFrom
  rw [Scan.run_bind_ok (Scan.run_findEither split hstart (.inl rfl) inside)]
  dsimp only
  rw [Scan.run_bind_ok piece, Scan.run_bind_ok mark, if_pos (by simp),
    Scan.run_bind_ok (Scan.run_advance (opened ++ (text ++ [quote])) rest (by simp [split])
      (by simp [hstart]; omega)), Scan.run_pure]
  simp

/-- One round: up to an escape. -/
theorem run_quotedFrom_escape {input opened text rest : Bytes} {byte : UInt8} {start : Nat}
    (other : quote ≠ ascii '\\')
    (split : input = opened ++ (text ++ ascii '\\' :: byte :: rest))
    (hstart : opened.length = start)
    (inside : ∀ byte ∈ text, byte ≠ quote ∧ byte ≠ ascii '\\') (fuel : Nat) (found : Bytes) :
    (settings.quotedFrom quote (fuel + 1) start found).run (between before input)
      = (settings.quotedFrom quote fuel (start + text.length + 2)
          (escaped byte :: (text.reverse ++ found))).run (between before input) := by
  have piece : (Scan.slice start (start + text.length)).run (between before input)
      = (.ok text, _) :=
    Scan.run_slice opened text (ascii '\\' :: byte :: rest) split hstart rfl
  have mark : (Scan.peek (start + text.length)).run (between before input)
      = (.ok (some (ascii '\\')), _) :=
    run_peek_behind (opened ++ text) (ascii '\\' :: byte :: rest) 0 (by simp [split])
      (by simp [hstart])
  have behind : (Scan.peek (start + text.length + 1)).run (between before input)
      = (.ok (some byte), _) :=
    run_peek_behind (opened ++ text) (ascii '\\' :: byte :: rest) 1 (by simp [split])
      (by simp [hstart])
  conv_lhs => unfold quotedFrom
  rw [Scan.run_bind_ok (Scan.run_findEither split hstart (.inr rfl) inside)]
  dsimp only
  rw [Scan.run_bind_ok piece, Scan.run_bind_ok mark, if_neg (by simpa using other.symm),
    Scan.run_bind_ok behind]
  dsimp only [List.getElem?_cons_succ, List.getElem?_cons_zero]
  rw [unescape_eq]

/-- **The inside of a quoted text is read**, with as many rounds as it has
bytes. -/
theorem run_quotedFrom (before : Bytes) {input opened source content rest : Bytes}
    {start fuel : Nat} (other : quote ≠ ascii '\\')
    (split : input = opened ++ (source ++ quote :: rest))
    (hstart : opened.length = start) (h : Quoted quote source content)
    (enough : source.length < fuel) (found : Bytes) :
    (settings.quotedFrom quote fuel start found).run (between before input)
      = (.ok (found.reverse ++ content),
          between (before ++ (opened ++ (source ++ [quote]))) rest) := by
  induction fuel generalizing opened source content start found with
  | zero => exact absurd enough (Nat.not_lt_zero _)
  | succ fuel ih =>
    obtain ⟨text, inside, ⟨rfl, rfl⟩ | ⟨byte, source', content', rfl, rfl, further⟩⟩ :=
      h.exists_plain
    · exact settings.run_quotedFrom_close split hstart inside fuel found
    · rw [List.append_assoc, List.cons_append, List.cons_append] at split
      rw [settings.run_quotedFrom_escape other split hstart inside fuel found]
      rw [List.length_append, List.length_cons, List.length_cons] at enough
      have split' : input
          = (opened ++ (text ++ [ascii '\\', byte])) ++ (source' ++ quote :: rest) := by
        simp [split]
      rw [ih split' (by simp [hstart]; omega) further (by omega)]
      simp

/-- **A text without a closing quote is malformed.** -/
theorem quotedFrom_total (before : Bytes) {input opened more : Bytes} {start : Nat} (fuel : Nat)
    (other : quote ≠ ascii '\\') (split : input = opened ++ more)
    (hstart : opened.length = start) (found : Bytes) :
    (∃ source content rest, more = source ++ quote :: rest ∧ Quoted quote source content)
      ∨ (settings.quotedFrom quote fuel start found).run (between before input)
          = (.error (settings.faultAt (.unterminatedString (Char.ofNat quote.toNat)) before input),
              between before input) := by
  -- whatever goes wrong, and also when the fuel ends, the fault is this one
  have failed := settings.run_malformed (α := Bytes)
    (.unterminatedString (Char.ofNat quote.toNat)) before input
  induction fuel generalizing opened more start found with
  | zero => exact .inr (by rw [quotedFrom]; exact failed)
  | succ fuel ih =>
    by_cases occurs : quote ∈ more ∨ ascii '\\' ∈ more
    · obtain ⟨text, byte, rest, rfl, rfl | rfl, inside⟩ := exists_first_either occurs
      · left
        refine ⟨text, text, rest, rfl, ?_⟩
        simpa using Quoted.of_plain inside .nil
      · cases rest with
        | nil =>
          have mark : (Scan.peek (start + text.length)).run (between before input)
              = (.ok (some (ascii '\\')), _) :=
            run_peek_behind (opened ++ text) [ascii '\\'] 0 (by simp [split]) (by simp [hstart])
          have behind : (Scan.peek (start + text.length + 1)).run (between before input)
              = (.ok none, _) :=
            run_peek_behind (opened ++ text) [ascii '\\'] 1 (by simp [split]) (by simp [hstart])
          unfold quotedFrom
          rw [Scan.run_bind_ok (Scan.run_findEither split hstart (.inr rfl) inside)]
          dsimp only
          rw [Scan.run_bind_ok (Scan.run_slice opened text _ split hstart rfl),
            Scan.run_bind_ok mark, if_neg (by simpa using other.symm), Scan.run_bind_ok behind]
          exact .inr failed
        | cons byte rest =>
          rw [settings.run_quotedFrom_escape other split hstart inside fuel found]
          have split' : input = (opened ++ (text ++ [ascii '\\', byte])) ++ rest := by
            simp [split]
          refine (ih split' (by simp [hstart]; omega) _).imp_left ?_
          rintro ⟨source, content, rest, rfl, derived⟩
          exact ⟨text ++ ascii '\\' :: byte :: source, text ++ escaped byte :: content, rest,
            by simp, .of_plain inside (.escape derived)⟩
    · have nowhere : (Scan.findEither quote (ascii '\\') start).run (between before input)
          = (.ok none, _) :=
        Scan.run_findEither_none (by rwa [split, ← hstart, List.drop_left])
      unfold quotedFrom
      rw [Scan.run_bind_ok nowhere]
      exact .inr failed

theorem run_scanText {source content rest : Bytes} (other : quote ≠ ascii '\\')
    (h : Quoted quote source content) :
    (settings.scanText quote).run (between before (quote :: (source ++ [quote]) ++ rest))
      = (.ok (.text (Utf8.decode content)),
          between (before ++ quote :: (source ++ [quote])) rest) := by
  have split : quote :: (source ++ [quote]) ++ rest = [quote] ++ (source ++ quote :: rest) := by
    simp
  have enough : source.length < (quote :: (source ++ [quote]) ++ rest).length + 1 := by
    simp
    omega
  have inside := settings.run_quotedFrom before other split
    (show [quote].length = 1 from rfl) h enough []
  unfold scanText
  rw [Scan.run_bind_ok (Scan.run_left _), InMemory.left_between, Scan.run_bind_ok inside,
    Scan.run_pure]
  simp

/-- **A text without a closing quote** is not read over. -/
theorem run_scanText_open (before : Bytes) {tail : Bytes}
    (mark : quote = ascii '\x27' ∨ quote = ascii '"')
    (unclosed : ∀ source content rest, tail = source ++ quote :: rest →
      ¬ Quoted quote source content) :
    (settings.scanText quote).run (between before (quote :: tail))
      = (.error (settings.faultAt (.unterminatedString (Char.ofNat quote.toNat)) before
          (quote :: tail)), between before (quote :: tail)) := by
  have failed := (settings.quotedFrom_total before ((quote :: tail).length + 1)
    (quote_ne_backslash mark)
    (show quote :: tail = [quote] ++ tail from rfl) (show [quote].length = 1 from rfl)
    []).resolve_left fun ⟨source, content, rest, split, inside⟩ =>
      unclosed source content rest split inside
  unfold scanText
  rw [Scan.run_bind_ok (Scan.run_left _), InMemory.left_between]
  exact Scan.run_bind_error failed

/-- **A text is read, or has no closing quote.** -/
theorem scanText_total (before : Bytes) {tail : Bytes}
    (mark : quote = ascii '\x27' ∨ quote = ascii '"') :
    settings.Decides (settings.scanText quote) before (quote :: tail) := by
  by_cases closed : ∃ source content rest, tail = source ++ quote :: rest
      ∧ Quoted quote source content
  · obtain ⟨source, content, rest, rfl, inside⟩ := closed
    exact .inl ⟨_, quote :: (source ++ [quote]), rest, by simp, .text mark inside⟩
  · have unclosed : ∀ source content rest, tail = source ++ quote :: rest →
        ¬ Quoted quote source content :=
      fun source content rest split inside => closed ⟨source, content, rest, split, inside⟩
    refine .inr ⟨_, ?_, settings.names_of_ne (by simp),
      settings.run_scanText_open before mark unclosed⟩
    rcases mark with rfl | rfl
    · exact .text (.inl rfl) unclosed
    · exact .text (.inr rfl) unclosed

end Quoted

/-! ## Quoted names -/

theorem run_scanName {name rest : Bytes} (inside : ascii '\x60' ∉ name) :
    settings.scanName.run
        (between before (ascii '\x60' :: (name ++ [ascii '\x60']) ++ rest))
      = (.ok (.identifier (Utf8.decode name)),
          between (before ++ ascii '\x60' :: (name ++ [ascii '\x60'])) rest) := by
  have found : (Scan.find [ascii '\x60'] 1).run
        (between before (ascii '\x60' :: (name ++ [ascii '\x60']) ++ rest))
      = (.ok (some (1 + name.length)), _) :=
    Scan.run_find [ascii '\x60'] name rest (by simp) rfl
      (by simpa [List.singleton_infix_iff] using inside)
  have piece : (Scan.slice 1 (1 + name.length)).run
        (between before (ascii '\x60' :: (name ++ [ascii '\x60']) ++ rest))
      = (.ok name, _) :=
    Scan.run_slice [ascii '\x60'] name (ascii '\x60' :: rest) (by simp) rfl rfl
  unfold scanName
  rw [Scan.run_bind_ok found]
  dsimp only
  rw [Scan.run_bind_ok piece, Scan.run_bind_ok (Scan.run_advance _ _ rfl (by simp; omega)),
    Scan.run_pure]

/-- A name without a closing backtick is malformed. -/
theorem run_scanName_open {name : Bytes} (nowhere : ascii '\x60' ∉ name) :
    settings.scanName.run (between before (ascii '\x60' :: name))
      = (.error (settings.faultAt .unterminatedName before (ascii '\x60' :: name)),
          between before (ascii '\x60' :: name)) := by
  have none : (Scan.find [ascii '\x60'] 1).run (between before (ascii '\x60' :: name))
      = (.ok none, _) :=
    Scan.run_find_none (by simp) (by simpa [List.singleton_infix_iff] using nowhere)
  unfold scanName
  rw [Scan.run_bind_ok none]
  exact settings.run_malformed .unterminatedName before _

/-! ## Any of them -/

/-- No token begins with any other byte. -/
theorem run_unexpected (before : Bytes) (byte : UInt8) (tail : Bytes) :
    (settings.unexpected byte : Scan Token).run (between before (byte :: tail))
      = (.error (settings.faultAt (.unexpectedCharacter (settings.firstShown (byte :: tail))) before
          (byte :: tail)), between before (byte :: tail)) := by
  unfold unexpected
  rw [Scan.run_bind_ok (Scan.run_preview _)]
  dsimp only
  rw [Scan.run_bind_ok (Scan.run_position _), Scan.run_fail]
  rfl

theorem run_scanDelimiter (mark : Delimiter) (byte : UInt8) (rest : Bytes) :
    (scanDelimiter mark).run (between before ([byte] ++ rest))
      = (.ok (.delimiter mark), between (before ++ [byte]) rest) := by
  have advanced : (Scan.advance 1).run (between before ([byte] ++ rest)) = (.ok (), _) :=
    Scan.run_advance [byte] rest rfl rfl
  unfold scanDelimiter
  rw [Scan.run_bind_ok advanced, Scan.run_pure]

theorem scanSimple_of_letter {byte : UInt8} (h : IsLetter byte) :
    settings.scanSimple byte = scanWord := by
  rw [scanSimple, if_pos ((isLetter_iff byte).2 h)]

theorem scanSimple_of_digit {byte : UInt8} (h : IsDigit byte) :
    settings.scanSimple byte = settings.scanNumber := by
  rw [scanSimple, if_neg (mt (isLetter_iff byte).1 h.not_letter), if_pos ((isDigit_iff byte).2 h)]

theorem scanSimple_of_quote {quote : UInt8} (mark : quote = ascii '\x27' ∨ quote = ascii '"') :
    settings.scanSimple quote = settings.scanText quote := by
  rcases mark with rfl | rfl <;> rfl

theorem scanSimple_of_foreign {byte : UInt8} (h : ¬ Begins byte) :
    settings.scanSimple byte = settings.unexpected byte := by
  simp only [Begins, not_or] at h
  obtain ⟨letter, digit, mark, backtick, comma, equal, dot⟩ := h
  rw [scanSimple, if_neg (mt (isLetter_iff byte).1 letter), if_neg (mt (isDigit_iff byte).1 digit),
    if_neg (by simpa using mark), if_neg (by simpa using backtick), if_neg (by simpa using comma),
    if_neg (by simpa using equal), if_neg (by simpa using dot)]

/-- **Every lexeme is read.** -/
theorem run_scanSimple {token : Token} {byte : UInt8} {source rest : Bytes}
    (h : Lexeme token source rest) (head : source.head? = some byte) :
    (settings.scanSimple byte).run (between before (source ++ rest))
      = (.ok token, between (before ++ source) rest) := by
  cases h with
  | keyword bytes found =>
    obtain ⟨first, hfirst, letter⟩ := bytes.letter
    obtain rfl := Option.some.inj (hfirst.symm.trans head)
    rw [settings.scanSimple_of_letter letter]
    exact run_scanWord bytes (.inl ⟨_, found, rfl⟩)
  | identifier bytes found =>
    obtain ⟨first, hfirst, letter⟩ := bytes.letter
    obtain rfl := Option.some.inj (hfirst.symm.trans head)
    rw [settings.scanSimple_of_letter letter]
    exact run_scanWord bytes (.inr ⟨found, rfl⟩)
  | integer bytes ends whole fits =>
    rw [settings.scanSimple_of_digit (bytes.bytes byte (List.mem_of_head? head)),
      settings.run_scanNumber bytes ends whole]
    exact settings.run_numeral (by rw [integer?_eq, if_pos fits])
  | @real whole fraction rest number hwhole hfraction ends nearest =>
    have first : whole.head? = some byte := by
      rwa [List.head?_append_of_ne_nil _ hwhole.ne_nil] at head
    rw [settings.scanSimple_of_digit (hwhole.bytes byte (List.mem_of_head? first)),
      settings.run_scanNumber_fraction hwhole hfraction ends]
    exact settings.run_numeral (by rw [real?_eq hwhole, nearest]; rfl)
  | text mark inside =>
    obtain rfl := Option.some.inj head
    rw [settings.scanSimple_of_quote mark]
    exact settings.run_scanText (quote_ne_backslash mark) inside
  | name inside =>
    obtain rfl := Option.some.inj head
    exact settings.run_scanName inside
  | @mark mark _ single =>
    obtain rfl := Option.some.inj head
    fin_cases single <;> exact run_scanDelimiter _ _ rest

/-- **Where there is no lexeme, reading fails.** -/
theorem scanSimple_total (before : Bytes) {byte : UInt8} {input : Bytes}
    (head : input.head? = some byte) :
    settings.Decides (settings.scanSimple byte) before input := by
  obtain ⟨tail, rfl⟩ : ∃ tail, input = byte :: tail := by
    cases input <;> simp_all
  by_cases letter : IsLetter byte
  · obtain ⟨run, rest, rfl, bytes, ends⟩ := exists_run isWordByte_iff tail
    have word := Word.cons letter bytes ends
    left
    rcases found : Keyword.lookup (Utf8.decode (byte :: run)) with _ | keyword
    · exact ⟨_, byte :: run, rest, rfl, .identifier word found⟩
    · exact ⟨_, byte :: run, rest, rfl, .keyword word found⟩
  by_cases digit : IsDigit byte
  · rw [settings.scanSimple_of_digit digit]
    exact settings.scanNumber_total before digit
  by_cases mark : byte = ascii '\x27' ∨ byte = ascii '"'
  · rw [settings.scanSimple_of_quote mark]
    exact settings.scanText_total before mark
  by_cases backtick : byte = ascii '\x60'
  · subst backtick
    by_cases ends : ascii '\x60' ∈ tail
    · obtain ⟨name, rest, rfl, inside⟩ := List.eq_append_cons_of_mem ends
      exact .inl ⟨_, _, rest, by simp, .name inside⟩
    · exact .inr ⟨_, .name ends, settings.names_of_ne (by simp), settings.run_scanName_open ends⟩
  by_cases comma : byte = ascii ','
  · subst comma
    exact .inl ⟨_, _, tail, rfl, Lexeme.mark (show Delimiter.comma ∈ _ by simp)⟩
  by_cases equal : byte = ascii '='
  · subst equal
    exact .inl ⟨_, _, tail, rfl, Lexeme.mark (show Delimiter.equal ∈ _ by simp)⟩
  by_cases dot : byte = ascii '.'
  · subst dot
    exact .inl ⟨_, _, tail, rfl, Lexeme.mark (show Delimiter.dot ∈ _ by simp)⟩
  have foreign : ¬ Begins byte := by
    simp only [Begins, letter, digit, mark, backtick, comma, equal, dot, or_self, not_false_iff]
  rw [settings.scanSimple_of_foreign foreign]
  refine .inr ⟨.unexpectedCharacter (settings.firstShown (byte :: tail)),
    .byte fun token source rest lexeme => foreign lexeme.begins, ?_,
    settings.run_unexpected before byte tail⟩
  rintro _ ⟨⟩
  rfl

/-- **Reading a token that is no group recognizes a lexeme.** -/
theorem recognizes_scanSimple {byte : UInt8} {input : Bytes} (head : input.head? = some byte) :
    (settings.scanSimple byte).Recognizes before input Lexeme := by
  refine .of_complete ?_ ((settings.scanSimple_total before head).imp_right
    fun ⟨_, _, _, failed⟩ => ⟨_, _, failed⟩)
  rintro token source rest rfl lexeme
  obtain ⟨first, tail, rfl, -, -⟩ := lexeme.exists_leading
  obtain rfl := Option.some.inj head
  exact settings.run_scanSimple lexeme rfl

end Settings

end TableDump
