import Mathlib
import TableDump.Proofs.Excerpts
import TableDump.Proofs.Progress
import TableDump.Proofs.Spelling
import TableDump.Proofs.Statements

/-!
# Which names need no backticks

The printer leaves the backticks out where it can, and decides that by looking at the name
alone (`isPlainName`). What it asks is what the grammar asks of a word that is not reserved
(`isPlainName_iff_word`).

That it should ask so is not clear yet: a name might also stand bare as something else that
is read as that name. There is nothing else. A token for a name is a word or has backticks. A
word is all ASCII, so its bytes are those of the name, and nothing stands beside it if the
name is the whole input. And a name read from backticks has none in it, so it is not the text
that it was read from (`Grammar.Lexeme.identifier_cases`).
-/

namespace TableDump

open Utf8 (encode)

namespace Grammar

variable {name : String} {source rest : Bytes} {maxDepth : Nat}

/-- **There are two ways of writing a name**: as its own bytes, if they are a word, or between
backticks, if it has none. -/
theorem Lexeme.identifier_cases (h : Lexeme (.identifier name) source rest) :
    (source = encode name.toList ∧ Word source rest ∧ Keyword.lookup name = none)
      ∨ (ascii backtick ∈ source ∧ backtick ∉ name.toList) := by
  cases h with
  | identifier bytes found =>
    have ascii : ∀ byte ∈ source, byte.toNat < 0x80 :=
      fun byte mem => (bytes.bytes byte mem).toNat_lt
    exact .inl ⟨(Utf8.encode_decode_ascii ascii).symm, bytes, found⟩
  | name inside => exact .inr ⟨List.mem_cons_self, backtick_notMem_decode inside⟩

/-- **What a dump of one name contains**: a lexeme for it, and something before and behind. -/
theorem Dump.exists_lexeme {input : Bytes}
    (h : Dump maxDepth [⟨[.identifier name]⟩] input) :
    ∃ front source back, input = front ++ (source ++ back)
      ∧ Lexeme (.identifier name) source back := by
  have first : ∀ {source rest : Bytes}, Items maxDepth 0 [.identifier name] source rest →
      ∃ word back, source ++ rest = word ++ back ∧ Lexeme (.identifier name) word back := by
    intro source rest items
    obtain _ | ⟨⟨lexeme⟩, -, -⟩ := items
    exact ⟨_, _, by simp, lexeme⟩
  obtain ⟨blanks, _, rest, rfl, -, statement, -⟩ := dump_cons_iff.1 h
  cases statement with
  | closed items =>
    obtain ⟨word, back, split, lexeme⟩ := first items
    exact ⟨blanks, word, back, by rw [← split]; simp, lexeme⟩
  | last _ items =>
    obtain ⟨word, back, split, lexeme⟩ := first items
    exact ⟨blanks, word, back, by rw [← split], lexeme⟩

/-- A word alone is a dump of one name, if it is not reserved. -/
theorem Dump.of_word (word : Word (encode name.toList) []) (free : Keyword.lookup name = none) :
    Dump maxDepth [⟨[.identifier name]⟩] (encode name.toList) := by
  have again : Utf8.decode (encode name.toList) = name := by
    rw [Utf8.decode_encode, String.ofList_toList]
  have lexeme : Lexeme (.identifier name) (encode name.toList) [] := by
    have lexeme := Lexeme.identifier word (again.symm ▸ free)
    rwa [again] at lexeme
  have items : Items maxDepth 0 [.identifier name] (encode name.toList) [] := by
    simpa using Items.cons (.lexeme lexeme) .nil .nil
  refine dump_cons_iff.2 ⟨[], encode name.toList, [], by simp, .nil, .last (by simp) items, ?_⟩
  exact dump_nil_iff.2 .nil

/-- **A name that is read from its own bytes is a word.** -/
theorem Dump.word_of_name (h : Dump maxDepth [⟨[.identifier name]⟩] (encode name.toList)) :
    Word (encode name.toList) [] ∧ Keyword.lookup name = none := by
  obtain ⟨front, source, back, split, lexeme⟩ := h.exists_lexeme
  rcases lexeme.identifier_cases with ⟨rfl, word, free⟩ | ⟨quoted, unquoted⟩
  · have nothing := congrArg List.length split
    simp only [List.length_append] at nothing
    obtain rfl : back = [] := List.eq_nil_of_length_eq_zero (by omega)
    exact ⟨word, free⟩
  · refine absurd ((Utf8.ascii_mem_encode (by decide)).1 ?_) unquoted
    rw [split]
    exact List.mem_append_right _ (List.mem_append_left _ quoted)

end Grammar

open Grammar

/-- **What the printer asks of a name**, in terms of the grammar. -/
theorem isPlainName_iff_word (name : String) :
    isPlainName name = true ↔ Word (encode name.toList) [] ∧ Keyword.lookup name = none := by
  rw [isPlainName, Utf8.toList_bytesOf]
  cases encode name.toList with
  | nil =>
    refine ⟨fun impossible => absurd impossible Bool.false_ne_true, fun ⟨word, _⟩ => ?_⟩
    obtain ⟨_, nothing, _⟩ := word.letter
    exact absurd nothing (by simp)
  | cons first more =>
    dsimp only
    rw [Bool.and_eq_true, Bool.and_eq_true, Option.isNone_iff_eq_none]
    refine and_congr_left fun _ => ⟨fun ⟨letter, bytes⟩ => ?_, fun word => ⟨?_, ?_⟩⟩
    · exact .of_bare letter bytes fun _ => nofun
    · obtain ⟨byte, head, letter⟩ := word.letter
      obtain rfl : first = byte := Option.some.inj head
      exact (isLetter_iff first).2 letter
    · refine List.all_eq_true.2 fun byte mem => (isWordByte_iff byte).2 ?_
      exact word.bytes byte (List.mem_cons_of_mem first mem)

/-- **The printer leaves a name bare exactly if it is plain.** -/
theorem Token.render_identifier_eq_iff (name : String) :
    (Token.identifier name).render = name ↔ isPlainName name = true := by
  rw [Token.render, Token.chars, Token.writtenName]
  by_cases plain : isPlainName name = true
  · rw [if_pos plain, String.ofList_toList]
    exact iff_of_true rfl plain
  · rw [if_neg plain]
    refine iff_of_false (fun same => ?_) plain
    have longer := congrArg (fun text => text.toList.length) same
    simp at longer
    omega

/-- **A name is written bare exactly when that is safe**: if it is plain, and it is plain
exactly if its own text, read as a whole input, is one statement with that name as its only
token. -/
theorem isPlainName_iff_read (name : String) (settings : Settings) :
    (isPlainName name = true
        ↔ (Reader.ofBytes (bytesOf name) settings).collect = .ok [⟨[.identifier name]⟩])
      ∧ ((Token.identifier name).render = name
        ↔ (Reader.ofBytes (bytesOf name) settings).collect = .ok [⟨[.identifier name]⟩]) := by
  have read : isPlainName name = true
      ↔ (Reader.ofBytes (bytesOf name) settings).collect = .ok [⟨[.identifier name]⟩] := by
    rw [isPlainName_iff_word]
    constructor
    · rintro ⟨word, free⟩
      refine Reader.collect_of_dump ?_
      rw [Utf8.toList_bytesOf]
      exact .of_word word free
    · intro collected
      have dump := Reader.dump_of_collect collected
      rw [Utf8.toList_bytesOf] at dump
      exact dump.word_of_name
  exact ⟨read, (Token.render_identifier_eq_iff name).trans read⟩

end TableDump
