import Mathlib
import TableDump.Text.Utf8

/-!
# Text survives as bytes

What is encoded is decoded again. The lead byte of a character gives the range
of the byte behind it, and the encoding of a character always stays in that
range: this is where it matters that a character is no surrogate and not larger
than U+10FFFF, and that it is encoded in as few bytes as possible.

Bytes of characters that are not ASCII are not ASCII either. So a search for an
ASCII byte in a text finds that character and nothing else.
-/

namespace TableDump.Utf8

/-- **The bytes of some characters.** -/
def encode (chars : List Char) : Bytes := chars.flatMap String.utf8EncodeChar

@[simp] theorem encode_nil : encode [] = [] := rfl

theorem encode_cons (char : Char) (chars : List Char) :
    encode (char :: chars) = String.utf8EncodeChar char ++ encode chars := rfl

@[simp] theorem encode_append (front back : List Char) :
    encode (front ++ back) = encode front ++ encode back :=
  List.flatMap_append

/-- The bytes of a text are those of its characters. -/
theorem toList_bytesOf (text : String) : (bytesOf text).toList = encode text.toList := by
  conv_lhs => rw [← String.ofList_toList (s := text)]
  show (String.ofList text.toList).toByteArray.data.toList = _
  rw [String.toByteArray_ofList, List.utf8Encode, List.data_toByteArray]
  rfl

/-! ## ASCII -/

/-- An ASCII character is one byte. -/
theorem encodeChar_ascii {char : Char} (h : char.toNat < 0x80) :
    String.utf8EncodeChar char = [ascii char] := by
  unfold String.utf8EncodeChar
  exact if_pos (Nat.le_of_lt_succ h)

/-- An ASCII byte is that of the character with its number. -/
theorem ascii_ofNat {byte : UInt8} (h : byte.toNat < 0x80) :
    (Char.ofNat byte.toNat).toNat = byte.toNat ∧ ascii (Char.ofNat byte.toNat) = byte := by
  have valid : byte.toNat.isValidChar := .inl (h.trans (by decide))
  have number : (Char.ofNat byte.toNat).toNat = byte.toNat := by
    rw [Char.toNat_ofNat, if_pos valid]
  refine ⟨number, ?_⟩
  show UInt8.ofNat (Char.ofNat byte.toNat).toNat = byte
  rw [number, UInt8.ofNat_toNat]

/-- ASCII characters are as many bytes. -/
theorem encode_ascii {chars : List Char} (h : ∀ char ∈ chars, char.toNat < 0x80) :
    encode chars = chars.map ascii := by
  induction chars with
  | nil => rfl
  | cons char chars ih =>
    rw [encode_cons, encodeChar_ascii (h char List.mem_cons_self),
      ih fun other mem => h other (List.mem_cons_of_mem char mem)]
    rfl

/-- Every byte of another character is larger. -/
theorem le_of_mem_encodeChar {char : Char} (h : 0x80 ≤ char.toNat) {byte : UInt8}
    (mem : byte ∈ String.utf8EncodeChar char) : 0x80 ≤ byte.toNat := by
  have large : ∀ number, 0x80 ≤ number → number < 0x100 → 0x80 ≤ (UInt8.ofNat number).toNat := by
    intro number hle hlt
    rwa [UInt8.toNat_ofNat_of_lt' hlt]
  have start : ¬ char.val.toNat ≤ 0x7F := Nat.not_le.2 h
  unfold String.utf8EncodeChar at mem
  dsimp only at mem
  rw [if_neg start] at mem
  split at mem
  · simp only [List.mem_cons, List.not_mem_nil, or_false] at mem
    rcases mem with rfl | rfl <;> exact large _ (by omega) (by omega)
  · split at mem
    · simp only [List.mem_cons, List.not_mem_nil, or_false] at mem
      rcases mem with rfl | rfl | rfl <;> exact large _ (by omega) (by omega)
    · simp only [List.mem_cons, List.not_mem_nil, or_false] at mem
      rcases mem with rfl | rfl | rfl | rfl <;> exact large _ (by omega) (by omega)

/-- **A search for an ASCII byte finds that character** and nothing else. -/
theorem ascii_mem_encodeChar {mark char : Char} (h : mark.toNat < 0x80) :
    ascii mark ∈ String.utf8EncodeChar char ↔ mark = char := by
  have value : ∀ {char : Char}, char.toNat < 0x80 → (ascii char).toNat = char.toNat := by
    intro char small
    exact UInt8.toNat_ofNat_of_lt' (Nat.lt_trans small (by decide))
  refine ⟨fun mem => ?_, ?_⟩
  · by_cases small : char.toNat < 0x80
    · rw [encodeChar_ascii small, List.mem_singleton] at mem
      have same : mark.toNat = char.toNat := by
        rw [← value h, mem, value small]
      exact Char.toNat_inj.1 same
    · have large := le_of_mem_encodeChar (Nat.le_of_not_lt small) mem
      rw [value h] at large
      exact absurd h (Nat.not_lt.2 large)
  · rintro rfl
    rw [encodeChar_ascii h]
    exact List.mem_singleton_self _

/-- The same in a text. -/
theorem ascii_mem_encode {mark : Char} {chars : List Char} (h : mark.toNat < 0x80) :
    ascii mark ∈ encode chars ↔ mark ∈ chars := by
  unfold encode
  simp only [List.mem_flatMap, ascii_mem_encodeChar h, exists_eq_right']

/-- **A text comes apart where the byte of an ASCII character stands** among its
bytes. -/
theorem exists_split_of_ascii {mark : Char} (h : mark.toNat < 0x80) {chars : List Char}
    {front back : Bytes} (split : encode chars = front ++ ascii mark :: back) :
    ∃ before after, chars = before ++ mark :: after ∧ encode before = front
      ∧ encode after = back := by
  induction chars generalizing front with
  | nil => simp at split
  | cons char chars ih =>
    rw [encode_cons] at split
    rcases List.append_eq_append_iff.1 split with ⟨front, rfl, later⟩ | ⟨inside, first, here⟩
    · obtain ⟨before, after, rfl, rfl, rfl⟩ := ih later
      exact ⟨char :: before, after, rfl, encode_cons char before, rfl⟩
    · cases inside with
      | nil =>
        -- the first character ends in front of the mark
        have later : encode chars = [] ++ ascii mark :: back := here.symm
        obtain ⟨before, after, rfl, nothing, rfl⟩ := ih later
        refine ⟨char :: before, after, rfl, ?_, rfl⟩
        rw [encode_cons, first, nothing, List.append_nil, List.append_nil]
      | cons byte inside =>
        obtain ⟨rfl, rfl⟩ := List.cons.inj here
        have mem : ascii mark ∈ String.utf8EncodeChar char := first ▸ by simp
        obtain rfl := (ascii_mem_encodeChar h).1 mem
        rw [encodeChar_ascii h] at first
        obtain ⟨rfl, ends⟩ | ⟨-, absurd⟩ := List.append_eq_singleton_iff.1 first.symm
        · obtain ⟨-, rfl⟩ := List.cons.inj ends
          exact ⟨[], chars, rfl, rfl, rfl⟩
        · simp at absurd

/-! ## Decoding a character -/

/-- A lead byte with one byte behind it. -/
theorem decodeFirst_two {bits : Nat} (hle : 2 ≤ bits) (hlt : bits < 32) (rest : Bytes) :
    decodeFirst (UInt8.ofNat (bits + 0xC0)) rest = decodeTail 1 0x80 0xBF bits 0 rest := by
  interval_cases bits <;> rfl

/-- A lead byte with two bytes behind it: the narrower ranges keep out overlong
forms and surrogates. -/
theorem decodeFirst_three {bits : Nat} (hlt : bits < 16) (rest : Bytes) :
    decodeFirst (UInt8.ofNat (bits + 0xE0)) rest
      = decodeTail 2 (if bits = 0 then 0xA0 else 0x80) (if bits = 13 then 0x9F else 0xBF) bits 0
          rest := by
  interval_cases bits <;> rfl

/-- A lead byte with three bytes behind it: the narrower ranges keep out
overlong forms and numbers above U+10FFFF. -/
theorem decodeFirst_four {bits : Nat} (hle : bits ≤ 4) (rest : Bytes) :
    decodeFirst (UInt8.ofNat (bits + 0xF0)) rest
      = decodeTail 3 (if bits = 0 then 0x90 else 0x80) (if bits = 4 then 0x8F else 0xBF) bits 0
          rest := by
  interval_cases bits <;> rfl

/-- One byte that fits. -/
theorem decodeTail_cons {count value used byte : Nat} {low high : UInt8} {rest : Bytes}
    (hlow : low.toNat ≤ byte) (hhigh : byte ≤ high.toNat) :
    decodeTail (count + 1) low high value used (UInt8.ofNat byte :: rest)
      = decodeTail count 0x80 0xBF (value * 64 + (byte - 0x80)) (used + 1) rest := by
  have small : (UInt8.ofNat byte).toNat = byte :=
    UInt8.toNat_ofNat_of_lt' (hhigh.trans_lt high.toNat_lt)
  rw [decodeTail, if_pos, small]
  rw [Bool.and_eq_true, decide_eq_true_eq, decide_eq_true_eq, UInt8.le_iff_toNat_le,
    UInt8.le_iff_toNat_le, small]
  exact ⟨hlow, hhigh⟩

/-- **A character is decoded again**, whatever follows it. -/
theorem decodeFirst_encodeChar (char : Char) (rest : Bytes) :
    ∃ lead tail, String.utf8EncodeChar char = lead :: tail
      ∧ decodeFirst lead (tail ++ rest) = (char, tail.length) := by
  have again : ∀ {number : Nat}, number = char.val.toNat → Char.ofNat number = char := by
    rintro _ rfl
    exact Char.ofNat_toNat char
  have scalar : char.val.toNat < 0xD800 ∨ 0xDFFF < char.val.toNat ∧ char.val.toNat < 0x110000 :=
    char.valid
  unfold String.utf8EncodeChar
  dsimp only
  generalize char.val.toNat = number at again scalar
  split
  · refine ⟨_, _, rfl, ?_⟩
    have small : (UInt8.ofNat number).toNat = number :=
      UInt8.toNat_ofNat_of_lt' (show number < 256 by omega)
    rw [decodeFirst, if_pos, small, again rfl, List.length_nil]
    rw [UInt8.lt_iff_toNat_lt, small]
    show number < 0x80
    omega
  split
  · refine ⟨_, _, rfl, ?_⟩
    rw [decodeFirst_two (by omega) (by omega), List.cons_append, decodeTail_cons, decodeTail]
    · rw [again (by omega)]
      rfl
    · show 0x80 ≤ _
      omega
    · show _ ≤ 0xBF
      omega
  split
  · refine ⟨_, _, rfl, ?_⟩
    rw [decodeFirst_three (by omega), List.cons_append, decodeTail_cons, List.cons_append,
      decodeTail_cons, decodeTail]
    · rw [again (by omega)]
      rfl
    · show 0x80 ≤ _
      omega
    · show _ ≤ 0xBF
      omega
    · split
      · show 0xA0 ≤ _
        omega
      · show 0x80 ≤ _
        omega
    · split
      · show _ ≤ 0x9F
        omega
      · show _ ≤ 0xBF
        omega
  · refine ⟨_, _, rfl, ?_⟩
    have bits : number / 262144 % 8 = number / 262144 := by omega
    rw [decodeFirst_four (by omega), List.cons_append, decodeTail_cons, List.cons_append,
      decodeTail_cons, List.cons_append, decodeTail_cons, decodeTail]
    · rw [again (by omega)]
      rfl
    · show 0x80 ≤ _
      omega
    · show _ ≤ 0xBF
      omega
    · show 0x80 ≤ _
      omega
    · show _ ≤ 0xBF
      omega
    · split
      · show 0x90 ≤ _
        omega
      · show 0x80 ≤ _
        omega
    · split
      · show _ ≤ 0x8F
        omega
      · show _ ≤ 0xBF
        omega

/-- Too few bytes make no character. -/
theorem decodeTail_short {count value used : Nat} {low high : UInt8} {bytes : Bytes}
    (short : bytes.length < count) :
    (decodeTail count low high value used bytes).1 = replacement := by
  induction count generalizing low high value used bytes with
  | zero => exact absurd short (Nat.not_lt_zero _)
  | succ count ih =>
    cases bytes with
    | nil => rfl
    | cons byte rest =>
      rw [decodeTail]
      split
      · exact ih (Nat.lt_of_succ_lt_succ short)
      · rfl

/-- **A character that is cut off** is not decoded. -/
theorem decodeFirst_short {char : Char} {lead : UInt8} {tail rest : Bytes}
    (bytes : String.utf8EncodeChar char = lead :: tail) (short : rest.length < tail.length) :
    (decodeFirst lead rest).1 = replacement := by
  have scalar : char.val.toNat < 0xD800 ∨ 0xDFFF < char.val.toNat ∧ char.val.toNat < 0x110000 :=
    char.valid
  unfold String.utf8EncodeChar at bytes
  dsimp only at bytes
  generalize char.val.toNat = number at bytes scalar
  split at bytes
  · obtain ⟨rfl, rfl⟩ := List.cons.inj bytes
    exact absurd short (Nat.not_lt_zero _)
  split at bytes
  · obtain ⟨rfl, rfl⟩ := List.cons.inj bytes
    rw [decodeFirst_two (by omega) (by omega)]
    exact decodeTail_short short
  split at bytes
  · obtain ⟨rfl, rfl⟩ := List.cons.inj bytes
    rw [decodeFirst_three (by omega)]
    exact decodeTail_short short
  · obtain ⟨rfl, rfl⟩ := List.cons.inj bytes
    have bits : number / 262144 % 8 = number / 262144 := by omega
    rw [decodeFirst_four (by omega)]
    exact decodeTail_short short

/-! ## Decoding a text -/

/-- What has been decoded stays as it is. -/
theorem decodeOnto_append (before others : List Char) (bytes : Bytes) :
    decodeOnto (before ++ others) bytes = decodeOnto before bytes ++ others := by
  fun_induction decodeOnto before bytes with
  | case1 before => rw [decodeOnto]
  | case2 before lead rest first ih => rw [decodeOnto, ← ih, List.cons_append]

/-- **The first character comes first.** -/
theorem decodeChars_cons (lead : UInt8) (rest : Bytes) :
    decodeChars (lead :: rest)
      = (decodeFirst lead rest).1 :: decodeChars (rest.drop (decodeFirst lead rest).2) := by
  have behind := decodeOnto_append [] [(decodeFirst lead rest).1]
    (rest.drop (decodeFirst lead rest).2)
  rw [decodeChars, decodeOnto, decodeChars, ← List.reverse_concat]
  exact congrArg List.reverse behind

/-- Characters are decoded one after the other. -/
theorem decodeOnto_encode (before chars : List Char) :
    decodeOnto before (encode chars) = chars.reverse ++ before := by
  induction chars generalizing before with
  | nil => rw [encode_nil, decodeOnto, List.reverse_nil, List.nil_append]
  | cons char chars ih =>
    obtain ⟨lead, tail, bytes, first⟩ := decodeFirst_encodeChar char (encode chars)
    rw [encode_cons, bytes, List.cons_append, decodeOnto, first, List.drop_left, ih,
      List.reverse_cons, List.append_assoc]
    rfl

/-- **What is encoded is decoded again.** -/
theorem decode_encode (chars : List Char) : decode (encode chars) = String.ofList chars := by
  rw [decode, decodeChars, decodeOnto_encode, List.append_nil, List.reverse_reverse]

/-- ASCII bytes come back when they are decoded and encoded again. -/
theorem encode_decode_ascii {bytes : Bytes} (h : ∀ byte ∈ bytes, byte.toNat < 0x80) :
    encode (decode bytes).toList = bytes := by
  have written : encode (bytes.map fun byte => Char.ofNat byte.toNat) = bytes := by
    rw [encode_ascii, List.map_map]
    · exact (List.map_congr_left fun byte mem => (ascii_ofNat (h byte mem)).2).trans
        (List.map_id bytes)
    · rw [List.forall_mem_map]
      exact fun byte mem => (ascii_ofNat (h byte mem)).1.trans_lt (h byte mem)
  conv_lhs => rw [← written, decode_encode, String.toList_ofList, written]

/-! ## What is decoded was there -/

/-- **A character that is not ASCII**, or the one that stands for a code that is
no character. -/
def Foreign (char : Char) : Prop := char.toNat = 0 ∨ 0x80 ≤ char.toNat

theorem foreign_replacement : Foreign replacement := .inr (by decide)

/-- A code that is too large for ASCII. -/
theorem foreign_ofNat {code : Nat} (h : 0x80 ≤ code) : Foreign (Char.ofNat code) := by
  unfold Foreign
  rw [Char.toNat_ofNat]
  split
  · exact .inr h
  · exact .inl rfl

/-- The bytes after the lead make no ASCII character, if the lead is too large
for one. -/
theorem foreign_decodeTail {count value : Nat} (h : 0x80 ≤ value * 64 ^ count)
    (low high : UInt8) (used : Nat) (bytes : Bytes) :
    Foreign (decodeTail count low high value used bytes).1 := by
  induction count generalizing low high value used bytes with
  | zero => exact foreign_ofNat (by simpa using h)
  | succ count ih =>
    cases bytes with
    | nil => exact foreign_replacement
    | cons byte rest =>
      rw [decodeTail]
      split
      · refine ih ?_ _ _ _ _
        rw [Nat.pow_succ, Nat.mul_comm (64 ^ count), ← Nat.mul_assoc] at h
        exact h.trans (Nat.mul_le_mul_right _ (Nat.le_add_right _ _))
      · exact foreign_replacement

/-- Where the lead says nothing, the byte after it is large enough. -/
theorem foreign_decodeTail_of_low {count : Nat} {low high : UInt8}
    (h : 0x80 ≤ (low.toNat - 0x80) * 64 ^ count) (used : Nat) (bytes : Bytes) :
    Foreign (decodeTail (count + 1) low high 0 used bytes).1 := by
  cases bytes with
  | nil => exact foreign_replacement
  | cons byte rest =>
    rw [decodeTail]
    split
    · rename_i fits
      rw [Bool.and_eq_true, decide_eq_true_eq, UInt8.le_iff_toNat_le] at fits
      refine foreign_decodeTail (h.trans (Nat.mul_le_mul_right _ ?_)) _ _ _ _
      rw [Nat.zero_mul, Nat.zero_add]
      exact Nat.sub_le_sub_right fits.1 _
    · exact foreign_replacement

/-- **A lead byte that is not ASCII begins no ASCII character**, whatever
follows it. -/
theorem foreign_decodeFirst {lead : UInt8} (h : 0x80 ≤ lead.toNat) (rest : Bytes) :
    Foreign (decodeFirst lead rest).1 := by
  unfold decodeFirst
  simp only [UInt8.lt_iff_toNat_lt, beq_iff_eq]
  split_ifs with ascii second two narrow surrogates three least four last
  · exact absurd h (Nat.not_le.2 ascii)
  · exact foreign_replacement
  · refine foreign_decodeTail ?_ _ _ _ _
    have : (0xC2 : UInt8).toNat = 0xC2 := rfl
    omega
  · exact foreign_decodeTail_of_low (by decide) _ _
  · exact foreign_decodeTail (by decide) _ _ _ _
  · refine foreign_decodeTail ?_ _ _ _ _
    have : (0xE0 : UInt8).toNat = 0xE0 := rfl
    have other : lead.toNat ≠ 0xE0 := fun same => narrow (UInt8.toNat_inj.1 same)
    omega
  · exact foreign_decodeTail_of_low (by decide) _ _
  · refine foreign_decodeTail ?_ _ _ _ _
    have : (0xF0 : UInt8).toNat = 0xF0 := rfl
    have other : lead.toNat ≠ 0xF0 := fun same => least (UInt8.toNat_inj.1 same)
    omega
  · exact foreign_decodeTail (by decide) _ _ _ _
  · exact foreign_replacement

/-- An ASCII character that a lead byte begins is that byte. -/
theorem eq_ascii_of_decodeFirst {mark : Char} (pos : 0 < mark.toNat) (small : mark.toNat < 0x80)
    {lead : UInt8} {rest : Bytes} (h : (decodeFirst lead rest).1 = mark) : lead = ascii mark := by
  by_cases large : 0x80 ≤ lead.toNat
  · have foreign := foreign_decodeFirst large rest
    rw [h] at foreign
    unfold Foreign at foreign
    omega
  · unfold decodeFirst at h
    rw [if_pos (UInt8.lt_iff_toNat_lt.2 (show lead.toNat < 0x80 by omega))] at h
    subst h
    refine UInt8.toNat_inj.1 ?_
    have valid : lead.toNat.isValidChar := .inl (by omega)
    show _ = (UInt8.ofNat (Char.ofNat lead.toNat).toNat).toNat
    rw [Char.toNat_ofNat, if_pos valid, UInt8.ofNat_toNat]

/-- **Decoding brings in no ASCII character**, even if the bytes are not text. -/
theorem ascii_mem_of_mem_decodeOnto {mark : Char} (pos : 0 < mark.toNat)
    (small : mark.toNat < 0x80) {before : List Char} {bytes : Bytes}
    (h : mark ∈ decodeOnto before bytes) : mark ∈ before ∨ ascii mark ∈ bytes := by
  fun_induction decodeOnto before bytes with
  | case1 before => exact .inl h
  | case2 before lead rest first ih =>
    rcases ih h with mem | mem
    · rcases List.mem_cons.1 mem with same | mem
      · have here : lead = ascii mark := eq_ascii_of_decodeFirst pos small same.symm
        exact .inr (here ▸ List.mem_cons_self)
      · exact .inl mem
    · exact .inr (List.mem_cons_of_mem _ (List.mem_of_mem_drop mem))

/-- The same for a text. -/
theorem ascii_mem_of_mem_decode {mark : Char} (pos : 0 < mark.toNat) (small : mark.toNat < 0x80)
    {bytes : Bytes} (h : mark ∈ (decode bytes).toList) : ascii mark ∈ bytes := by
  rw [decode, String.toList_ofList, decodeChars, List.mem_reverse] at h
  exact (ascii_mem_of_mem_decodeOnto pos small h).resolve_left List.not_mem_nil

end TableDump.Utf8
