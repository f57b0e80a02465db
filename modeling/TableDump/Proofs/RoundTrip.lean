import Mathlib
import TableDump.Proofs.Spelling
import TableDump.Proofs.Statements

/-!
# What is written is read again

Statements that are written with their canonical texts, each with a semicolon
and a line end behind it, are read as these statements
(`Reader.collect_written`).

The canonical text puts one blank between any two tokens, also between the
parentheses of a group and what they enclose. So a list of tokens is written as
tokens with a blank behind each but the last, and each of them stands before a
blank or the semicolon that ends the statement. That is all a token asks of
what follows it, and the rest is an induction on the tree, in which groups use
up the depth that is allowed.
-/

namespace TableDump

open Grammar
open Utf8 (encode)

/-- **A token that its text can be read as**, with no more than `room` groups
inside one another. -/
inductive Canonical : (room : Nat) → Token → Prop where
  | simple {room : Nat} {token : Token} (simple : Simple token) : Canonical room token
  | group {room : Nat} {tokens : List Token}
      (inside : ∀ token ∈ tokens, Canonical room token) :
      Canonical (room + 1)
        (.group (.delimiter .leftParen :: (tokens ++ [.delimiter .rightParen])))

/-- The text of a dump: statements, each with a semicolon and a line end. -/
def written (statements : List Statement) : String :=
  String.join (statements.map fun statement => statement.render ++ ";\n")

/-! ## Tokens with blanks behind them -/

/-- Some pieces and a last one, with a separator between them. -/
theorem intercalate_concat {α : Type} (separator last : List α) (pieces : List (List α)) :
    separator.intercalate (pieces ++ [last]) = pieces.flatMap (· ++ separator) ++ last := by
  induction pieces with
  | nil => exact List.intercalate_singleton
  | cons piece pieces ih =>
    rw [List.cons_append, List.intercalate_cons_of_ne_nil (by simp), ih, List.flatMap_cons,
      List.append_assoc, List.append_assoc, List.append_assoc]

/-- Some tokens, with a blank behind each of them. -/
def spaced (tokens : List Token) : List Char := tokens.flatMap fun token => token.chars ++ [' ']

/-- The text of a group. -/
theorem chars_group (tokens : List Token) :
    Token.chars (.group (.delimiter .leftParen :: (tokens ++ [.delimiter .rightParen])))
      = '(' :: ' ' :: (spaced tokens ++ [')']) := by
  rw [Token.chars, ← List.cons_append, List.map_append, List.map_singleton, intercalate_concat,
    List.map_cons, List.flatMap_cons, List.flatMap_map, Token.chars, Token.chars]
  rfl

namespace Grammar

variable {maxDepth depth : Nat}

theorem Blanks.of_space {byte : UInt8} (h : IsSpace byte) (rest : Bytes) :
    Blanks [byte] rest := by
  show Blanks ([byte] ++ []) rest
  exact .cons (.space h) .nil

/-- Tokens with a blank behind each of them come before other tokens. -/
theorem Items.spaced_append {tokens others : List Token} {more rest : Bytes}
    (h : ∀ token ∈ tokens, ∀ {rest}, Breaks rest →
      Item maxDepth depth token (encode token.chars) rest)
    (further : Items maxDepth depth others more rest) :
    Items maxDepth depth (tokens ++ others) (encode (spaced tokens) ++ more) rest := by
  induction tokens with
  | nil => exact further
  | cons token tokens ih =>
    have here : Item maxDepth depth token (encode token.chars)
        ([ascii ' '] ++ ((encode (spaced tokens) ++ more) ++ rest)) :=
      h token List.mem_cons_self (.inl rfl)
    have behind := ih fun other mem => h other (List.mem_cons_of_mem token mem)
    have source : encode (spaced (token :: tokens)) ++ more
        = encode token.chars ++ ([ascii ' '] ++ (encode (spaced tokens) ++ more)) := by
      unfold spaced
      rw [List.flatMap_cons, Utf8.encode_append, Utf8.encode_append, List.append_assoc,
        List.append_assoc]
      rfl
    rw [source]
    exact .cons here (.of_space (.inl rfl) _) behind

/-- **The text of a token is an item of the grammar.** -/
theorem Item.of_canonical {room : Nat} {token : Token} (h : Canonical room token) :
    ∀ {depth : Nat}, depth + room ≤ maxDepth → ∀ {rest : Bytes}, Breaks rest →
      Item maxDepth depth token (encode token.chars) rest := by
  induction h with
  | simple simple => exact fun _ _ breaks => .lexeme (.of_simple simple breaks)
  | @group room tokens _ ih =>
    intro depth fits rest breaks
    have inside : Items maxDepth (depth + 1) (tokens ++ []) (encode (spaced tokens) ++ [])
        (ascii ')' :: rest) :=
      .spaced_append (fun token mem => ih token mem (by omega)) .nil
    rw [List.append_nil, List.append_nil] at inside
    rw [chars_group, Utf8.encode_cons, Utf8.encode_cons, Utf8.encode_append]
    exact .group (by omega) (.of_space (.inl rfl) _) inside

/-- The text of a statement is one, with a semicolon behind it. -/
theorem IsStatement.of_canonical {statement : Statement}
    (h : ∀ token ∈ statement.tokens, Canonical maxDepth token) (rest : Bytes) :
    IsStatement maxDepth statement (encode statement.render.toList ++ [ascii ';']) rest := by
  have item : ∀ token ∈ statement.tokens, ∀ {rest}, Breaks rest →
      Item maxDepth 0 token (encode token.chars) rest :=
    fun token mem => Item.of_canonical (h token mem) (Nat.zero_add maxDepth).le
  refine .closed ?_
  unfold Statement.render Token.renderAll
  rw [String.toList_ofList]
  rcases List.eq_nil_or_concat statement.tokens with none | ⟨tokens, last, split⟩
  · rw [none]
    exact .nil
  · rw [split, List.concat_eq_append] at item ⊢
    have alone : Items maxDepth 0 [last] (encode last.chars) (ascii ';' :: rest) := by
      have here : Item maxDepth 0 last (encode last.chars) (ascii ';' :: rest) :=
        item last (by simp) (.inr rfl)
      have items : Items maxDepth 0 [last] (encode last.chars ++ ([] ++ [])) (ascii ';' :: rest) :=
        .cons here .nil .nil
      rwa [List.append_nil, List.append_nil] at items
    rw [List.map_append, List.map_singleton, intercalate_concat, List.flatMap_map,
      Utf8.encode_append]
    exact .spaced_append (fun token mem => item token (List.mem_append_left _ mem)) alone

/-- The text of some statements is a dump of them. -/
theorem Statements.of_canonical {statements : List Statement}
    (h : ∀ statement ∈ statements, ∀ token ∈ statement.tokens, Canonical maxDepth token) :
    Statements maxDepth statements (encode (written statements).toList) := by
  unfold written
  rw [String.toList_join, List.flatMap_map]
  induction statements with
  | nil => exact .nil
  | cons statement statements ih =>
    have behind := ih fun other mem => h other (List.mem_cons_of_mem statement mem)
    rw [List.flatMap_cons, String.toList_append, Utf8.encode_append, Utf8.encode_append]
    show Statements maxDepth _ (_ ++ ([ascii ';'] ++ [ascii '\n']) ++ _)
    rw [← List.append_assoc, List.append_assoc]
    exact .cons (.of_canonical (h statement List.mem_cons_self) _)
      (.of_space (by decide) _) behind

/-- And so are its bytes. -/
theorem Dump.of_written {statements : List Statement}
    (h : ∀ statement ∈ statements, ∀ token ∈ statement.tokens, Canonical maxDepth token) :
    Dump maxDepth statements (bytesOf (written statements)).toList := by
  rw [Utf8.toList_bytesOf]
  exact .intro .nil (.of_canonical h)

end Grammar

/-- **What is written for some statements is read as these statements**,
whatever stands in their names and texts. -/
theorem Reader.collect_written (settings : Settings) (statements : List Statement)
    (h : ∀ statement ∈ statements, ∀ token ∈ statement.tokens,
      Canonical settings.maxDepth token) :
    (Reader.ofBytes (bytesOf (written statements)) settings).collect = .ok statements :=
  collect_of_dump (.of_written h)

/-- An insertion that is full of marks: a name with a semicolon and a comment in
it, a text with a quote, and groups inside one another. -/
def oddInsertion : Statement where
  tokens := [.keyword .INSERT, .keyword .INTO, .identifier "odd;--name", .keyword .VALUES,
    .group [.delimiter .leftParen, .text "it's", .delimiter .comma, .real ⟨0x3FF8000000000000⟩,
      .group [.delimiter .leftParen, .integer 7, .delimiter .rightParen],
      .delimiter .rightParen]]

/-- That insertion and an empty statement. -/
theorem collect_written_oddInsertion :
    (∀ statement ∈ [oddInsertion, ⟨[]⟩], ∀ token ∈ statement.tokens, Canonical 2 token)
      ∧ (Reader.ofBytes (bytesOf (written [oddInsertion, ⟨[]⟩])) { maxDepth := 2 }).collect
        = .ok [oddInsertion, ⟨[]⟩] := by
  have seven : Canonical 1
      (.group (.delimiter .leftParen :: ([.integer 7] ++ [.delimiter .rightParen]))) :=
    .group (by simpa using .simple (.integer (by decide)))
  have row : Canonical 2 (.group (.delimiter .leftParen :: ([.text "it's", .delimiter .comma,
      .real ⟨0x3FF8000000000000⟩,
      .group [.delimiter .leftParen, .integer 7, .delimiter .rightParen]]
      ++ [.delimiter .rightParen]))) := by
    refine .group ?_
    simp only [List.forall_mem_cons, List.not_mem_nil, IsEmpty.forall_iff, implies_true, and_true]
    exact ⟨.simple (.text _), .simple (.mark (by decide)), .simple (.real (by decide) (by decide)),
      seven⟩
  have tokens : ∀ statement ∈ [oddInsertion, ⟨[]⟩], ∀ token ∈ statement.tokens,
      Canonical 2 token := by
    simp only [oddInsertion, List.forall_mem_cons, List.not_mem_nil, IsEmpty.forall_iff,
      implies_true, and_true]
    exact ⟨.simple (.keyword _), .simple (.keyword _), .simple (.identifier (by decide)),
      .simple (.keyword _), row⟩
  exact ⟨tokens, Reader.collect_written { maxDepth := 2 } _ tokens⟩

end TableDump
