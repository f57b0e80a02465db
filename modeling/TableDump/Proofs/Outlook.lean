import Mathlib
import TableDump.Proofs.Statements

/-!
# What a token sees of what follows it

Whether some bytes are a token can depend on the bytes behind them, but on few of
these: a word looks for another word byte, a number for a digit or for a point
with a digit behind it. So a token sees nothing behind the first byte with which no
token could go on, and what follows may be anything from there on.

This is said once, for any two things that may follow (`Grammar.EndsToo`), and
carried through the grammar. Blanks see even less. All that makes a difference to
them is whether anything follows, since a comment without a line end needs the end
of the input.

A statement sees the least. In front of its semicolon the bytes behind it are out of
sight, and without a semicolon there are none (`Grammar.IsStatement.of_rest`).
-/

namespace TableDump.Grammar

variable {maxDepth depth : Nat} {token : Token} {source rest rest' : Bytes}

/-! ## Blanks -/

theorem Comment.of_ne_nil (h : Comment source rest) (ne_nil : rest ≠ []) :
    Comment source rest' := by
  cases h with
  | line inside => exact .line inside
  | lastLine => exact absurd rfl ne_nil
  | block inside => exact .block inside

theorem Blank.of_ne_nil (h : Blank source rest) (ne_nil : rest ≠ []) : Blank source rest' := by
  cases h with
  | space space => exact .space space
  | comment comment => exact .comment (comment.of_ne_nil ne_nil)

/-- **Blanks with something behind them** are blanks, whatever is behind them. -/
theorem Blanks.of_ne_nil (h : Blanks source rest) (ne_nil : rest ≠ []) :
    Blanks source rest' := by
  induction h with
  | nil => exact .nil
  | cons first others ih => exact .cons (first.of_ne_nil (by simp [ne_nil])) (ih ne_nil)

/-! ## What may follow instead -/

/-- **What ends in front of `rest` ends in front of `rest'` too**: the two begin
alike, up to where `rest'` has a byte with which no token could go on. -/
inductive EndsToo : (rest rest' : Bytes) → Prop where
  | stop {rest rest' : Bytes} (ends : Ends Leads rest') : EndsToo rest rest'
  | cons {rest rest' : Bytes} (byte : UInt8) (further : EndsToo rest rest') :
      EndsToo (byte :: rest) (byte :: rest')

namespace EndsToo

theorem refl : ∀ rest : Bytes, EndsToo rest rest
  | [] => .stop nofun
  | byte :: rest => .cons byte (refl rest)

/-- The same bytes may stand in front. -/
theorem append (h : EndsToo rest rest') : ∀ front : Bytes, EndsToo (front ++ rest) (front ++ rest')
  | [] => h
  | byte :: front => .cons byte (h.append front)

/-- A byte that a token could go on with is seen on both sides. -/
theorem exists_cons {byte : UInt8} {more' : Bytes} (h : EndsToo rest (byte :: more'))
    (leads : Leads byte) : ∃ more, rest = byte :: more ∧ EndsToo more more' := by
  cases h with
  | stop ends => exact absurd leads (ends byte rfl)
  | cons _ further => exact ⟨_, rfl, further⟩

/-- A run that ends in front of the one ends in front of the other. -/
theorem ends {member : UInt8 → Prop} (h : EndsToo rest rest') (ends : Ends member rest)
    (leads : ∀ byte, member byte → Leads byte) : Ends member rest' := by
  intro byte head same
  obtain ⟨more', rfl⟩ := List.head?_eq_some_iff.1 head
  obtain ⟨more, rfl, -⟩ := h.exists_cons (leads byte same)
  exact ends byte rfl same

/-- No fraction starts where none did. -/
theorem not_startsFraction (h : EndsToo rest rest') (whole : ¬ StartsFraction rest) :
    ¬ StartsFraction rest' := by
  rintro ⟨digit, more', rfl, isDigit⟩
  obtain ⟨_, rfl, further⟩ := h.exists_cons (by decide)
  obtain ⟨more, rfl, -⟩ := further.exists_cons isDigit.leads.1
  exact whole ⟨digit, more, rfl, isDigit⟩

end EndsToo

/-! ## Tokens and statements -/

theorem IsWordByte.leads {byte : UInt8} (h : IsWordByte byte) : Leads byte :=
  .of_kind h (by decide +kernel)

/-- **A token that is no group** is one in front of what ends it too. -/
theorem Lexeme.of_endsToo (h : Lexeme token source rest) (alike : EndsToo rest rest') :
    Lexeme token source rest' := by
  have word : ∀ {word}, Word word rest → Word word rest' :=
    fun bytes => { bytes with ends := alike.ends bytes.ends fun _ => IsWordByte.leads }
  have digits : Ends IsDigit rest → Ends IsDigit rest' :=
    fun ends => alike.ends ends fun _ digit => digit.leads.1
  cases h with
  | keyword bytes found => exact .keyword (word bytes) found
  | identifier bytes found => exact .identifier (word bytes) found
  | integer bytes ends whole fits =>
    exact .integer bytes (digits ends) (alike.not_startsFraction whole) fits
  | real before behind ends nearest => exact .real before behind (digits ends) nearest
  | text mark inside => exact .text mark inside
  | name inside => exact .name inside
  | mark single => exact .mark single

mutual

/-- **So is any token.** -/
theorem Item.of_endsToo {maxDepth : Nat} :
    ∀ {depth : Nat} {token : Token} {source rest rest' : Bytes},
      Item maxDepth depth token source rest → EndsToo rest rest' →
        Item maxDepth depth token source rest'
  | _, _, _, _, _, .lexeme lexeme, alike => .lexeme (lexeme.of_endsToo alike)
  | _, _, _, _, _, .group room leading inside, alike =>
    .group room (leading.of_ne_nil (by simp)) (Items.of_endsToo inside (.cons _ alike) (by simp))

/-- So are some tokens, if there is something behind them. -/
theorem Items.of_endsToo {maxDepth : Nat} :
    ∀ {depth : Nat} {tokens : List Token} {source rest rest' : Bytes},
      Items maxDepth depth tokens source rest → EndsToo rest rest' → rest ≠ [] →
        Items maxDepth depth tokens source rest'
  | _, _, _, _, _, .nil, _, _ => .nil
  | _, _, _, _, _, @Items.cons _ _ _ _ _ blanks more _ first between others, alike, ne_nil =>
    .cons (Item.of_endsToo first ((alike.append more).append blanks))
      (between.of_ne_nil (by simp [ne_nil])) (Items.of_endsToo others alike ne_nil)

end

/-- **A statement is one whatever follows it**, unless it is ended by the end of the
input. -/
theorem IsStatement.of_rest {statement : Statement} (h : IsStatement maxDepth statement source rest)
    (last : rest = [] → rest' = []) : IsStatement maxDepth statement source rest' := by
  cases h with
  | closed items =>
    have stop : Ends Leads (ascii ';' :: rest') := by
      rintro _ ⟨⟩ leads
      exact leads.semicolon rfl
    exact .closed (items.of_endsToo (.stop stop) (by simp))
  | last ne_nil items =>
    rw [last rfl]
    exact .last ne_nil items

/-- **A statement ends with a semicolon**, or with the input. -/
theorem IsStatement.semicolon_or_nil {statement : Statement}
    (h : IsStatement maxDepth statement source rest) : [ascii ';'] <:+ source ∨ rest = [] := by
  cases h with
  | closed items => exact .inl (List.suffix_append _ _)
  | last ne_nil items => exact .inr rfl

end TableDump.Grammar
