import Mathlib
import TableDump.Proofs.BoundedWindow
import TableDump.Proofs.SameReading

/-!
# What is read is well-formed

The type of tokens has groups that are not parenthesized, names that cannot be
written and numbers that have no literal. Reading makes none of these, whatever
the bytes are and whichever cursor they are read with (`Reader.reads_wellFormed`). Whoever
takes a group apart finds its parentheses where they should be, and any statement
that was read can be written and is read again.

That a token can be written is what the rules for reading give directly
(`Canonical`), and it goes by the tree. Here it is said of every token in a
statement by itself (`Token.Proper`), at any depth (`Token.Within`).
-/

namespace TableDump

open Grammar (Simple)

/-! ## Well-formed statements -/

namespace Token

/-- A token is the other one, or stands in it at any depth. -/
inductive Within (part : Token) : Token → Prop where
  | self : Within part part
  | group {tokens : List Token} {inner : Token} (mem : inner ∈ tokens) (h : Within part inner) :
      Within part (.group tokens)

mutual

/-- How many groups stand inside one another in a token, itself included. -/
def nesting : Token → Nat
  | .group tokens => nestingAll tokens + 1
  | .identifier _ => 0
  | .keyword _ => 0
  | .delimiter _ => 0
  | .integer _ => 0
  | .real _ => 0
  | .text _ => 0

/-- How many groups stand inside one another in some tokens. -/
def nestingAll : List Token → Nat
  | [] => 0
  | token :: tokens => max (nesting token) (nestingAll tokens)

end

/-- **What holds of a token by itself.** A group is bounded by parentheses and has
no others among its own tokens; a name has no backtick in it; numbers have no
sign, and are finite. -/
def Proper : Token → Prop
  | .group tokens =>
    ∃ inside, tokens = .delimiter .leftParen :: (inside ++ [.delimiter .rightParen])
      ∧ .delimiter .leftParen ∉ inside ∧ .delimiter .rightParen ∉ inside
  | .identifier name => backtick ∉ name.toList
  | .integer value => 0 ≤ value.toInt ∧ value.toInt < 2 ^ 63
  | .real value => value.isFinite = true ∧ value.isNegative = false
  | .keyword _ => True
  | .delimiter _ => True
  | .text _ => True

theorem nestingAll_le_iff {tokens : List Token} {room : Nat} :
    nestingAll tokens ≤ room ↔ ∀ token ∈ tokens, token.nesting ≤ room := by
  induction tokens with
  | nil => simp [nestingAll]
  | cons token tokens ih => rw [nestingAll, max_le_iff, ih, List.forall_mem_cons]

end Token

/-- **A well-formed statement**: parentheses belong to groups, the groups are nested
as deep as is allowed, and any token is as it should be. -/
structure Statement.WellFormed (maxDepth : Nat) (statement : Statement) : Prop where
  leftParen : .delimiter .leftParen ∉ statement.tokens
  rightParen : .delimiter .rightParen ∉ statement.tokens
  nesting : ∀ token ∈ statement.tokens, token.nesting ≤ maxDepth
  proper : ∀ token ∈ statement.tokens, ∀ part, Token.Within part token → part.Proper

/-! ## What can be written is well-formed -/

namespace Grammar.Simple

variable {token : Token}

theorem proper (h : Simple token) : token.Proper := by
  cases h with
  | identifier inside => exact inside
  | keyword | mark | text => trivial
  | @integer number nonneg => exact ⟨Int64.le_iff_toInt_le.1 nonneg, number.toInt_lt⟩
  | real positive finite => exact ⟨finite, positive⟩

theorem nesting_eq (h : Simple token) : token.nesting = 0 := by
  cases h <;> rfl

/-- It has no parts. -/
theorem eq_of_within (h : Simple token) {part : Token} (within : Token.Within part token) :
    part = token := by
  cases within with
  | self => rfl
  | group => cases h

end Grammar.Simple

namespace Canonical

variable {room : Nat} {token : Token}

/-- **A parenthesis by itself cannot be written.** -/
theorem ne_paren (h : Canonical room token) :
    token ≠ .delimiter .leftParen ∧ token ≠ .delimiter .rightParen := by
  cases h with
  | simple simple =>
    cases simple with
    | mark single => fin_cases single <;> decide
    | identifier | keyword | integer | real | text => exact ⟨nofun, nofun⟩
  | group => exact ⟨nofun, nofun⟩

theorem nesting_le (h : Canonical room token) : token.nesting ≤ room := by
  induction h with
  | simple simple => exact simple.nesting_eq.trans_le (Nat.zero_le _)
  | @group room tokens inside ih =>
    rw [Token.nesting, Nat.add_le_add_iff_right, Token.nestingAll_le_iff]
    simp only [List.mem_cons, List.mem_append, List.not_mem_nil, or_false]
    rintro token (rfl | mem | rfl)
    · exact Nat.zero_le _
    · exact ih token mem
    · exact Nat.zero_le _

theorem proper (h : Canonical room token) {part : Token} (within : Token.Within part token) :
    part.Proper := by
  induction h with
  | simple simple => exact simple.eq_of_within within ▸ simple.proper
  | @group room tokens inside ih =>
    cases within with
    | self =>
      refine ⟨tokens, rfl, fun mem => ?_, fun mem => ?_⟩
      · exact (inside _ mem).ne_paren.1 rfl
      · exact (inside _ mem).ne_paren.2 rfl
    | group mem within =>
      simp only [List.mem_cons, List.mem_append, List.not_mem_nil, or_false] at mem
      rcases mem with rfl | mem | rfl
      · cases within
        trivial
      · exact ih _ mem within
      · cases within
        trivial

end Canonical

/-- **A statement that can be written is well-formed.** -/
theorem Statement.wellFormed_of_canonical {maxDepth : Nat} {statement : Statement}
    (h : ∀ token ∈ statement.tokens, Canonical maxDepth token) :
    statement.WellFormed maxDepth where
  leftParen mem := (h _ mem).ne_paren.1 rfl
  rightParen mem := (h _ mem).ne_paren.2 rfl
  nesting token mem := (h token mem).nesting_le
  proper token mem _ within := (h token mem).proper within

/-! ## What readers give -/

namespace Reader

variable {κ : Type} [Cursor κ]

section

variable {reader reader' : Reader κ} {statement : Statement}

/-- **All statements that are handed out can be written.** -/
theorem Poised.canonical {bytes : Array UInt8} {stands : (place reach : Nat) → κ → Prop}
    {settings : Settings} (h : reader.Poised stands settings) (footing : Footing bytes stands)
    (emits : reader.Emits statement) :
    ∀ token ∈ statement.tokens, Canonical settings.maxDepth token := by
  obtain ⟨count, place, mem⟩ := emits
  induction count generalizing reader with
  | zero => exact absurd mem List.not_mem_nil
  | succ count ih =>
    rcases here : reader.next with ⟨fault | found, reader'⟩
    · -- behind the failure nothing is handed out
      rw [transcript, here] at mem
      rcases List.mem_cons.1 mem with same | mem
      · simp at same
      · exact absurd ⟨count, place, mem⟩ (not_emits_of_finished (finished_of_next here (by simp)) _)
    · obtain ⟨poised, canonical⟩ := h.next footing here
      rw [transcript, here] at mem
      rcases List.mem_cons.1 mem with same | mem
      · exact canonical statement (Except.ok.inj (Prod.mk.inj same).1).symm
      · exact ih poised mem

/-- All statements of a dump are handed out by some call. -/
theorem emits_of_collectWithin {fuel : Nat} {before statements : List Statement}
    (h : collectWithin fuel before reader = .ok statements) :
    ∀ statement ∈ statements, statement ∈ before ∨ reader.Emits statement := by
  induction fuel generalizing before reader with
  | zero =>
    obtain rfl := Except.ok.inj h
    exact fun statement mem => .inl (List.mem_reverse.1 mem)
  | succ fuel ih =>
    rw [collectWithin] at h
    rcases here : reader.next with ⟨fault | (_ | found), reader'⟩
    · simp [here] at h
    · rw [here] at h
      obtain rfl := Except.ok.inj h
      exact fun statement mem => .inl (List.mem_reverse.1 mem)
    · rw [here] at h
      intro statement mem
      rcases ih h statement mem with mem | later
      · rcases List.mem_cons.1 mem with rfl | mem
        · exact .inr (.of_next here)
        · exact .inl mem
      · exact .inr (later.of_later here)

end

/-- **A reader whose statements are as they should be.** -/
structure Sound (reader : Reader κ) : Prop where
  /-- They are well-formed. -/
  wellFormed : ∀ statement, reader.Emits statement →
    statement.WellFormed reader.settings.maxDepth
  /-- They can be written. -/
  canonical : ∀ statement, reader.Emits statement →
    ∀ token ∈ statement.tokens, Canonical reader.settings.maxDepth token
  /-- What is written for a whole dump is read as the same statements, in memory -/
  reread : ∀ statements, reader.collect = .ok statements →
    (ofBytes (bytesOf (written statements)) reader.settings).collect = .ok statements
  /-- and from a source that gives it in pieces. -/
  rereadSource : ∀ statements, reader.collect = .ok statements →
    ∀ script, KeepsGiving (bytesOf (written statements)).size script →
      (∀ error, Reply.fail error ∈ script → error.kind = .interrupted) →
      (ofSource { bytes := bytesOf (written statements), script } reader.settings).collect
        = .ok statements

/-- A reader that stands in the input gives statements as they should be. -/
theorem Poised.sound {bytes : Array UInt8} {stands : (place reach : Nat) → κ → Prop}
    {reader : Reader κ} (h : reader.Poised stands reader.settings)
    (footing : Footing bytes stands) : reader.Sound := by
  have reread : ∀ statements, reader.collect = .ok statements →
      (ofBytes (bytesOf (written statements)) reader.settings).collect = .ok statements := by
    intro statements collected
    refine collect_of_dump (.of_written fun statement mem => h.canonical footing ?_)
    exact (emits_of_collectWithin collected statement mem).resolve_left List.not_mem_nil
  refine ⟨fun statement emits => ?_, fun statement emits => h.canonical footing emits, reread,
    fun statements collected script honest reliable => ?_⟩
  · exact Statement.wellFormed_of_canonical (h.canonical footing emits)
  · rw [← reread statements collected]
    exact Streaming.lockstep.collect (alike_ofSource honest reliable reader.settings)

/-- **Every statement that is read is well-formed**, from any bytes, whether they are
text or not, with any settings, and from memory as from a source – which may give
its bytes in pieces of any size, fail, or end too soon. So whatever is read can be
written, and a dump that is read to its end is read again from what is written. -/
theorem reads_wellFormed (bytes : Array UInt8) (script : List Reply) (settings : Settings) :
    (ofBytes bytes settings).Sound ∧ (ofSource { bytes, script } settings).Sound := by
  constructor
  · have poised : (ofBytes bytes settings).Poised (InMemory.Stands bytes) settings :=
      ⟨⟨0, rfl, rfl, Nat.zero_le _⟩, rfl⟩
    exact poised.sound (InMemory.footing bytes)
  · have poised : (ofSource { bytes, script } settings).Poised _ _ :=
      poised_ofSource bytes script settings
    exact poised.sound (Streaming.footing bytes _)

end Reader

end TableDump
