import Mathlib
import TableDump.Proofs.ColumnSources

/-!
# Which statements define a table

A definition is recognized by how it begins, and its columns are the names that the entries of
its body begin with. What is recognized is told here without a scan over the tokens
(`Grammar.Defines`): the body is split at its commas, and of each piece the first token is looked
at. The scan has no pieces. It goes by the token before, and that is the same
(`TableDefinition.entryNames_eq`), also where pieces are empty.

Two things follow that a scan of a text could easily get wrong. A group inside of the body is one
token of it, so the names and commas in such a group do not matter, and neither does a condition
in front of the name, although it moves everything behind it.
-/

namespace TableDump

namespace Grammar

/-- **A chosen table**: any one, or one of those that are listed, as it is written there. -/
inductive Chosen : Selection → String → Prop where
  | all {table : String} : Chosen .all table
  | only {tables : List String} {table : String} (mem : table ∈ tables) :
      Chosen (.only tables) table

theorem chosen_iff {selection : Selection} {table : String} :
    Chosen selection table ↔ selection.contains table = true := by
  cases selection with
  | all => exact ⟨fun _ => rfl, fun _ => .all⟩
  | only tables =>
    rw [Selection.contains, List.contains_iff_mem]
    exact ⟨fun | .only mem => mem, .only⟩

/-- `IF NOT EXISTS`, with the first of the words in any case. It is a name, and the others are
keywords. -/
inductive IfNotExists : List Token → Prop where
  | intro {word : String} (spelled : word ∈ ["IF", "If", "iF", "if"]) :
      IfNotExists [.identifier word, .keyword .NOT, .keyword .EXISTS]

/-- The name that an entry begins with, if it begins with one. -/
def declared? (entry : List Token) : Option String := entry.head?.bind Token.name?

/-- **The columns of a body**: the names that the pieces between its commas begin with. -/
def columns (body : List Token) : List String :=
  (body.splitOn (.delimiter .comma)).filterMap declared?

/-- **The definition of a chosen table.** -/
inductive Defines (selection : Selection) : List Token → TableDefinition → Prop where
  | intro {verb : Token} {condition body rest : List Token} {name : String}
      (conditional : condition = [] ∨ IfNotExists condition) (chosen : Chosen selection name) :
      Defines selection
        (verb :: .keyword .TABLE :: (condition ++ .identifier name
          :: .group (.delimiter .leftParen :: body) :: rest))
        { name, fields := columns body }

/-- Tokens that are the same **from the outside**: two groups are, whatever stands in them. -/
inductive Outwardly : Token → Token → Prop where
  | same (token : Token) : Outwardly token token
  | groups (tokens tokens' : List Token) : Outwardly (.group tokens) (.group tokens')

/-- Tokens that differ, if at all, **in groups that stand in a group**. -/
inductive AlikeOutside : Token → Token → Prop where
  | same (token : Token) : AlikeOutside token token
  | groups {tokens tokens' : List Token} (alike : List.Forall₂ Outwardly tokens tokens') :
      AlikeOutside (.group tokens) (.group tokens')

end Grammar

open Grammar

/-! ## The spelling of a word -/

/-- A letter is itself in upper case, or the small letter. -/
theorem toUpper_eq_iff {char capital small : Char} (upper : capital.toUpper = capital)
    (lower : small.toUpper = capital) (apart : small.toNat = capital.toNat + 32) :
    char.toUpper = capital ↔ char = capital ∨ char = small := by
  constructor
  · intro same
    by_cases isLower : char.isLower = true
    · have range : 97 ≤ char.toNat ∧ char.toNat ≤ 122 := by
        rw [Char.isLower, Bool.and_eq_true, decide_eq_true_eq, decide_eq_true_eq] at isLower
        exact ⟨UInt32.le_iff_toNat_le.1 isLower.1, UInt32.le_iff_toNat_le.1 isLower.2⟩
      have valid : (char.toNat - 32).isValidChar := .inl (by omega)
      rw [Char.toUpper_eq_of_isLower isLower, ← Char.toNat_inj, Char.toNat_ofNat, if_pos valid]
        at same
      exact .inr (Char.toNat_inj.1 (by omega))
    · exact .inl ((Char.toUpper_eq_of_not_isLower isLower).symm.trans same)
  · rintro (rfl | rfl)
    · exact upper
    · exact lower

/-- **Two letters can be written in four ways.** -/
theorem sameButCase_if {word : String} :
    sameButCase word "IF" = true ↔ word ∈ ["IF", "If", "iF", "if"] := by
  have first (char : Char) : char.toUpper = 'I' ↔ char = 'I' ∨ char = 'i' :=
    toUpper_eq_iff (by decide) (by decide) (by decide)
  have second (char : Char) : char.toUpper = 'F' ↔ char = 'F' ∨ char = 'f' :=
    toUpper_eq_iff (by decide) (by decide) (by decide)
  have capitals : sameButCase word "IF" = true ↔ word.toList.map Char.toUpper = ['I', 'F'] := by
    rw [sameButCase, beq_iff_eq, Keyword.upperCase, Keyword.upperCase, String.ofList_inj]
    rfl
  have spelled : word ∈ ["IF", "If", "iF", "if"]
      ↔ word.toList ∈ [['I', 'F'], ['I', 'f'], ['i', 'F'], ['i', 'f']] :=
    (List.mem_map_of_injective (fun _ _ => String.toList_inj.1)).symm
  rw [capitals, spelled]
  rcases word.toList with _ | ⟨char, _ | ⟨char', _ | ⟨char'', chars⟩⟩⟩
  · simp
  · simp
  · simp only [List.map_cons, List.map_nil, List.cons.injEq, and_true, List.mem_cons,
      List.not_mem_nil, or_false]
    rw [first char, second char', or_and_right, and_or_left, and_or_left, or_assoc]
  · simp

/-! ## The body -/

namespace TableDefinition

/-- **What begins behind a comma** is what pieces begin with. In front of the first comma a name
counts only where something begins. -/
theorem entryNames_pieces (body : List Token) :
    entryNames true body = columns body
      ∧ entryNames false body = (body.splitOn (.delimiter .comma)).tail.filterMap declared? := by
  induction body with
  | nil => exact ⟨rfl, rfl⟩
  | cons token body ih =>
    obtain ⟨starting, inside⟩ := ih
    have pieces : (token :: body).splitOn (.delimiter .comma)
        = if token == .delimiter .comma then [] :: body.splitOn (.delimiter .comma)
          else (body.splitOn (.delimiter .comma)).modifyHead (token :: ·) :=
      List.splitOnP_cons_eq_if_modifyHead token body
    unfold columns at starting ⊢
    rw [pieces, entryNames, entryNames]
    by_cases comma : token = .delimiter .comma
    · subst comma
      exact ⟨starting, starting⟩
    · rw [beq_false_of_ne comma, inside]
      obtain ⟨first, others, split⟩ : ∃ first others,
          body.splitOn (.delimiter .comma) = first :: others :=
        List.exists_cons_of_ne_nil (List.splitOnP_ne_nil _ body)
      rw [split, if_neg Bool.false_ne_true, List.modifyHead_cons, List.tail_cons,
        List.filterMap_cons]
      have first_eq : declared? (token :: first) = token.name? := rfl
      rw [first_eq]
      cases token.name? with
      | none | some name => exact ⟨rfl, rfl⟩

/-- **The columns are picked out of the pieces.** -/
theorem entryNames_eq (body : List Token) : entryNames true body = columns body :=
  (entryNames_pieces body).1

/-! ## The statement -/

variable {selection : Selection} {definition : TableDefinition}

/-- A condition is skipped, and where there is none, nothing is. -/
theorem skipCondition_eq (tokens : List Token) :
    ∃ condition, tokens = condition ++ skipCondition tokens
      ∧ (condition = [] ∨ IfNotExists condition) := by
  unfold skipCondition
  split
  case h_1 word rest =>
    split
    case isTrue same => exact ⟨_, rfl, .inr (.intro (sameButCase_if.1 same))⟩
    case isFalse => exact ⟨[], rfl, .inl rfl⟩
  case h_2 => exact ⟨[], rfl, .inl rfl⟩

theorem IfNotExists.isCondition {condition : List Token}
    (h : condition = [] ∨ IfNotExists condition) : IsCondition condition := by
  rcases h with rfl | ifNotExists
  · exact .unconditional
  · cases ifNotExists with
    | intro spelled => exact .ifNotExists (sameButCase_if.2 spelled)

/-- **A definition is recognized**, and nothing else is. -/
theorem ofStatement?_eq_some {statement : Statement} :
    ofStatement? statement selection = some definition
      ↔ Defines selection statement.tokens definition := by
  obtain ⟨tokens⟩ := statement
  constructor
  · intro found
    unfold ofStatement? at found
    split at found
    case h_2 => cases found
    case h_1 verb rest tokens_eq =>
      obtain rfl : tokens = _ := tokens_eq
      obtain ⟨condition, rest_eq, conditional⟩ := skipCondition_eq rest
      split at found
      case h_2 => cases found
      case h_1 name body behind skipped =>
        split at found
        case isFalse => cases found
        case isTrue chosen =>
          obtain rfl := Option.some.inj found
          rw [rest_eq, skipped, entryNames_eq]
          exact .intro conditional (chosen_iff.2 chosen)
  · rintro ⟨conditional, chosen⟩
    unfold ofStatement?
    dsimp only
    rw [skipCondition_append (IfNotExists.isCondition conditional)]
    dsimp only
    rw [if_pos (chosen_iff.1 chosen), entryNames_eq]

/-! ## What does not matter -/

/-- A token that is no group has no other that is outwardly the same. -/
theorem Outwardly.eq {token token' : Token} (h : Outwardly token token')
    (single : ∀ tokens, token ≠ .group tokens) : token = token' := by
  cases h with
  | same => rfl
  | groups tokens => exact absurd rfl (single tokens)

/-- **Groups are not looked into** for the names of columns. -/
theorem entryNames_outwardly {body body' : List Token} (h : List.Forall₂ Outwardly body body')
    (atStart : Bool) : entryNames atStart body = entryNames atStart body' := by
  induction h generalizing atStart with
  | nil => rfl
  | cons here _ ih =>
    cases here with
    | same token => rw [entryNames, entryNames, ih]
    | groups tokens tokens' => exact ih false

/-- The name and the body of a definition are the same from outside of the groups in the body. -/
theorem exists_body {name : String} {body rest tokens : List Token}
    (h : List.Forall₂ AlikeOutside
      (.identifier name :: .group (.delimiter .leftParen :: body) :: rest) tokens) :
    ∃ body' rest', tokens = .identifier name :: .group (.delimiter .leftParen :: body') :: rest'
      ∧ List.Forall₂ Outwardly body body' := by
  obtain _ | ⟨named, _ | ⟨bounded, others⟩⟩ := h
  cases named
  cases bounded with
  | same =>
    exact ⟨body, _, rfl, List.forall₂_same.2 fun token _ => .same token⟩
  | groups alike =>
    obtain _ | ⟨opening, inside⟩ := alike
    cases opening
    exact ⟨_, _, rfl, inside⟩

/-- **What stands in the groups of a body has no part** in what the statement defines. -/
theorem Defines.of_alikeOutside {tokens tokens' : List Token}
    (h : Defines selection tokens definition) (alike : List.Forall₂ AlikeOutside tokens tokens') :
    Defines selection tokens' definition := by
  obtain ⟨conditional, chosen⟩ := h
  obtain _ | ⟨-, _ | ⟨keyword, others⟩⟩ := alike
  cases keyword
  have columns_eq : ∀ {body body' : List Token}, List.Forall₂ Outwardly body body' →
      columns body = columns body' := by
    intro body body' inside
    rw [← entryNames_eq, ← entryNames_eq, entryNames_outwardly inside]
  rcases conditional with rfl | ifNotExists
  · obtain ⟨body', rest', rfl, inside⟩ := exists_body others
    rw [columns_eq inside]
    exact .intro (.inl rfl) chosen
  · cases ifNotExists with
    | intro spelled =>
      obtain _ | ⟨first, _ | ⟨second, _ | ⟨third, others⟩⟩⟩ := others
      cases first
      cases second
      cases third
      obtain ⟨body', rest', rfl, inside⟩ := exists_body others
      rw [columns_eq inside]
      exact .intro (.inr (.intro spelled)) chosen

/-- So two statements that differ there only define the same. -/
theorem ofStatement?_alikeOutside {statement statement' : Statement}
    (alike : List.Forall₂ AlikeOutside statement.tokens statement'.tokens)
    (selection : Selection) :
    ofStatement? statement selection = ofStatement? statement' selection := by
  have outwardly : ∀ token token', Outwardly token token' → Outwardly token' token := by
    rintro token token' (_ | ⟨tokens, tokens'⟩)
    · exact .same _
    · exact .groups tokens' tokens
  have back : List.Forall₂ AlikeOutside statement'.tokens statement.tokens := by
    refine (alike.imp fun token token' here => ?_).flip
    cases here with
    | same => exact .same token
    | groups inside => exact .groups (inside.imp outwardly).flip
  refine Option.ext fun definition => ?_
  rw [ofStatement?_eq_some, ofStatement?_eq_some]
  exact ⟨fun defines => Defines.of_alikeOutside defines alike,
    fun defines => Defines.of_alikeOutside defines back⟩

/-- A condition in front of something else is skipped. -/
theorem ofStatement?_conditional {condition tokens : List Token} (h : IfNotExists condition)
    (other : ∀ condition' rest, IfNotExists condition' → tokens ≠ condition' ++ rest)
    (verb : Token) (selection : Selection) :
    ofStatement? { tokens := verb :: .keyword .TABLE :: (condition ++ tokens) } selection
      = ofStatement? { tokens := verb :: .keyword .TABLE :: tokens } selection := by
  have unconditional : skipCondition tokens = tokens := by
    obtain ⟨condition', tokens_eq, conditional⟩ := skipCondition_eq tokens
    rcases conditional with rfl | ifNotExists
    · exact tokens_eq.symm
    · exact absurd tokens_eq (other condition' _ ifNotExists)
  have skipped : skipCondition (condition ++ tokens) = tokens := by
    cases h with
    | intro spelled =>
      show skipCondition (.identifier _ :: .keyword .NOT :: .keyword .EXISTS :: _) = _
      rw [skipCondition, if_pos (sameButCase_if.2 spelled)]
      rfl
  unfold ofStatement?
  dsimp only
  rw [skipped, unconditional]

/-- **A statement defines a table if it begins like a definition of a chosen one**, and only then:
with any token, the keyword, perhaps a condition, the name and a parenthesized body. The table has
this name, and its columns are the names that the pieces between the commas of the body begin
with. What stands in groups of the body has no part in that, and a condition has none either,
unless another one stands behind it. -/
theorem ofStatement?_exact (selection : Selection) :
    (∀ statement definition, ofStatement? statement selection = some definition
        ↔ Defines selection statement.tokens definition)
      ∧ (∀ statement statement',
          List.Forall₂ AlikeOutside statement.tokens statement'.tokens →
          ofStatement? statement selection = ofStatement? statement' selection)
      ∧ ∀ verb condition tokens, IfNotExists condition →
          (∀ condition' rest, IfNotExists condition' → tokens ≠ condition' ++ rest) →
          ofStatement? { tokens := verb :: .keyword .TABLE :: (condition ++ tokens) } selection
            = ofStatement? { tokens := verb :: .keyword .TABLE :: tokens } selection :=
  ⟨fun _ _ => ofStatement?_eq_some,
    fun _ _ alike => ofStatement?_alikeOutside alike selection,
    fun verb _ _ conditional other => ofStatement?_conditional conditional other verb selection⟩

/-- A key over two other columns, which might be none, and a column behind an empty entry. -/
theorem ofStatement?_exact_key :
    let condition := [.identifier "iF", .keyword .NOT, .keyword .EXISTS]
    let table := fun key : List Token =>
      [.identifier "t", .group [.delimiter .leftParen, .identifier "a", .keyword .INT,
        .delimiter .comma, .keyword .KEY, .group key, .delimiter .comma, .delimiter .comma,
        .identifier "d", .delimiter .rightParen]]
    let statement := fun condition key : List Token =>
      Statement.mk (.identifier "create" :: .keyword .TABLE :: (condition ++ table key))
    let key := [.delimiter .leftParen, .identifier "b", .delimiter .comma, .identifier "c",
      .delimiter .rightParen]
    let chosen := Selection.only ["t"]
    List.Forall₂ AlikeOutside (statement condition key).tokens (statement condition []).tokens
      ∧ ofStatement? (statement condition key) chosen = ofStatement? (statement condition []) chosen
      ∧ IfNotExists condition
      ∧ (∀ condition' rest, IfNotExists condition' → table [] ≠ condition' ++ rest)
      ∧ ofStatement? (statement condition []) chosen = ofStatement? (statement [] []) chosen
      ∧ ofStatement? (statement [] []) chosen = some { name := "t", fields := ["a", "d"] } := by
  intro condition table statement key chosen
  obtain ⟨defines_iff, alike_eq, conditional_eq⟩ := ofStatement?_exact chosen
  have ifNotExists : IfNotExists condition := .intro (by decide)
  have other : ∀ condition' rest, IfNotExists condition' → table [] ≠ condition' ++ rest := by
    rintro _ rest ⟨-⟩ ⟨⟩
  have defines : Defines chosen (statement [] []).tokens { name := "t", fields := ["a", "d"] } :=
    .intro (.inl rfl) (.only List.mem_cons_self)
  have same : ∀ tokens : List Token, List.Forall₂ AlikeOutside tokens tokens :=
    fun tokens => List.forall₂_same.2 fun token _ => .same token
  have same' : ∀ tokens : List Token, List.Forall₂ Outwardly tokens tokens :=
    fun tokens => List.forall₂_same.2 fun token _ => .same token
  have body : List.Forall₂ AlikeOutside (table key) (table []) :=
    .cons (.same _) (.cons (.groups
      (List.rel_append (same' [_, _, _, _, _]) (.cons (.groups key []) (same' _)))) .nil)
  have alike : List.Forall₂ AlikeOutside (statement condition key).tokens
      (statement condition []).tokens :=
    List.rel_append (same [_, _, _, _, _]) body
  exact ⟨alike, alike_eq _ _ alike, ifNotExists, other, conditional_eq _ _ _ ifNotExists other,
    (defines_iff _ _).2 defines⟩

end TableDefinition

end TableDump
