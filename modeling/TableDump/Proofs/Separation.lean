import Mathlib
import TableDump.Proofs.Outlook

/-!
# More blanks make no difference

Spaces and comments may be added to a dump wherever something ends or begins –
a token, a parenthesis, a semicolon, or the dump itself. It is still read as the
same statements (`Reader.collect_separated`), whatever the comments contain.

Where these places are is told by the derivation of the dump. So each relation
of the grammar has one of *edges* beside it, which is about a source that is cut
in two at such a place. Its rules follow those of the grammar: either the place
is one of their own, or it lies in one of the parts.

What stands before an edge is derived in front of other bytes than before. It
still is derived, since a word or a number does not go on with what separators
begin with, and a comment to the end of the input has no edge behind it
(`Separator.endsToo`, `Item.insert`, `Items.insert`). At the edge itself, what is
added joins the blanks that are there, or could be. In front of some tokens
these belong to whatever stands before the tokens, and behind a token to
whatever goes on there; so the laws of adding leave the edges at either end of a
source to the rule around it.
-/

namespace TableDump

namespace Grammar

/-! ## Separators -/

/-- **Spaces, and comments that come to an end.** -/
inductive Separator : Bytes → Prop where
  | nil : Separator []
  | space {byte : UInt8} {others : Bytes} (space : IsSpace byte) (further : Separator others) :
      Separator (byte :: others)
  | line {text others : Bytes} (inside : ascii '\n' ∉ text) (further : Separator others) :
      Separator (ascii '-' :: ascii '-' :: (text ++ [ascii '\n']) ++ others)
  | block {text others : Bytes} (inside : ¬ [ascii '*', ascii '/'] <:+: text)
      (further : Separator others) :
      Separator (ascii '/' :: ascii '*' :: (text ++ [ascii '*', ascii '/']) ++ others)

/-! ## Edges -/

mutual

/-- **An edge of a token**: where it begins or ends, where a parenthesis ends or
begins inside of it, or an edge of what it encloses. -/
inductive Item.Edge (maxDepth : Nat) :
    (depth : Nat) → Token → (front back rest : Bytes) → Prop where
  | begins {depth : Nat} {token : Token} {source rest : Bytes}
      (item : Item maxDepth depth token source rest) : Item.Edge maxDepth depth token [] source rest
  | ends {depth : Nat} {token : Token} {source rest : Bytes}
      (item : Item maxDepth depth token source rest) : Item.Edge maxDepth depth token source [] rest
  | opened {depth : Nat} {tokens : List Token} {blanks source rest : Bytes}
      (room : depth < maxDepth) (leading : Blanks blanks (source ++ ascii ')' :: rest))
      (inside : Items maxDepth (depth + 1) tokens source (ascii ')' :: rest)) :
      Item.Edge maxDepth depth
        (.group (.delimiter .leftParen :: (tokens ++ [.delimiter .rightParen])))
        [ascii '('] (blanks ++ (source ++ [ascii ')'])) rest
  | closing {depth : Nat} {tokens : List Token} {blanks source rest : Bytes}
      (room : depth < maxDepth) (leading : Blanks blanks (source ++ ascii ')' :: rest))
      (inside : Items maxDepth (depth + 1) tokens source (ascii ')' :: rest)) :
      Item.Edge maxDepth depth
        (.group (.delimiter .leftParen :: (tokens ++ [.delimiter .rightParen])))
        (ascii '(' :: (blanks ++ source)) [ascii ')'] rest
  | inside {depth : Nat} {tokens : List Token} {blanks front back rest : Bytes}
      (room : depth < maxDepth) (leading : Blanks blanks (front ++ back ++ ascii ')' :: rest))
      (edge : Items.Edge maxDepth (depth + 1) tokens front back (ascii ')' :: rest)) :
      Item.Edge maxDepth depth
        (.group (.delimiter .leftParen :: (tokens ++ [.delimiter .rightParen])))
        (ascii '(' :: (blanks ++ front)) (back ++ [ascii ')']) rest

/-- An edge of one of some tokens. -/
inductive Items.Edge (maxDepth : Nat) :
    (depth : Nat) → List Token → (front back rest : Bytes) → Prop where
  | first {depth : Nat} {token : Token} {tokens : List Token} {front back blanks more rest : Bytes}
      (edge : Item.Edge maxDepth depth token front back (blanks ++ (more ++ rest)))
      (between : Blanks blanks (more ++ rest)) (others : Items maxDepth depth tokens more rest) :
      Items.Edge maxDepth depth (token :: tokens) front (back ++ (blanks ++ more)) rest
  | later {depth : Nat} {token : Token} {tokens : List Token}
      {source blanks front back rest : Bytes}
      (first : Item maxDepth depth token source (blanks ++ (front ++ back ++ rest)))
      (between : Blanks blanks (front ++ back ++ rest))
      (edge : Items.Edge maxDepth depth tokens front back rest) :
      Items.Edge maxDepth depth (token :: tokens) (source ++ (blanks ++ front)) back rest

end

/-- **An edge of a statement**: of one of its tokens, or of the semicolon. -/
inductive IsStatement.Edge (maxDepth : Nat) : Statement → (front back rest : Bytes) → Prop where
  | closed {tokens : List Token} {front back rest : Bytes}
      (edge : Items.Edge maxDepth 0 tokens front back (ascii ';' :: rest)) :
      IsStatement.Edge maxDepth { tokens } front (back ++ [ascii ';']) rest
  | last {tokens : List Token} {front back : Bytes}
      (edge : Items.Edge maxDepth 0 tokens front back []) :
      IsStatement.Edge maxDepth { tokens } front back []
  | semicolon {tokens : List Token} {source rest : Bytes}
      (items : Items maxDepth 0 tokens source (ascii ';' :: rest)) :
      IsStatement.Edge maxDepth { tokens } source [ascii ';'] rest
  | ended {tokens : List Token} {source rest : Bytes}
      (items : Items maxDepth 0 tokens source (ascii ';' :: rest)) :
      IsStatement.Edge maxDepth { tokens } (source ++ [ascii ';']) [] rest

/-- An edge of one of some statements. -/
inductive Statements.Edge (maxDepth : Nat) : List Statement → (front back : Bytes) → Prop where
  | first {statement : Statement} {statements : List Statement} {front back blanks more : Bytes}
      (edge : IsStatement.Edge maxDepth statement front back (blanks ++ more))
      (between : Blanks blanks more) (others : Statements maxDepth statements more) :
      Statements.Edge maxDepth (statement :: statements) front (back ++ (blanks ++ more))
  | later {statement : Statement} {statements : List Statement} {source blanks front back : Bytes}
      (first : IsStatement maxDepth statement source (blanks ++ (front ++ back)))
      (between : Blanks blanks (front ++ back))
      (edge : Statements.Edge maxDepth statements front back) :
      Statements.Edge maxDepth (statement :: statements) (source ++ (blanks ++ front)) back

/-- **An edge of a dump**: where it begins, or an edge of one of its
statements. -/
inductive Dump.Edge (maxDepth : Nat) : List Statement → (front back : Bytes) → Prop where
  | begins {statements : List Statement} {source : Bytes}
      (dump : Dump maxDepth statements source) : Dump.Edge maxDepth statements [] source
  | inside {statements : List Statement} {blanks front back : Bytes}
      (leading : Blanks blanks (front ++ back))
      (edge : Statements.Edge maxDepth statements front back) :
      Dump.Edge maxDepth statements (blanks ++ front) back

variable {maxDepth depth : Nat} {token : Token} {tokens : List Token}
  {source front back rest added : Bytes}

/-! ## What stands at an edge -/

mutual

theorem Item.Edge.item {maxDepth : Nat} : ∀ {depth : Nat} {token : Token} {front back rest : Bytes},
    Item.Edge maxDepth depth token front back rest → Item maxDepth depth token (front ++ back) rest
  | _, _, _, _, _, .begins item => item
  | _, _, _, _, _, .ends item => by rwa [List.append_nil]
  | _, _, _, _, _, .opened room leading inside => .group room leading inside
  | _, _, _, _, _, .closing room leading inside => by
    simpa using Item.group room leading inside
  | _, _, _, _, _, .inside room leading edge => by
    simpa using Item.group room leading (Items.Edge.items edge)

theorem Items.Edge.items {maxDepth : Nat} :
    ∀ {depth : Nat} {tokens : List Token} {front back rest : Bytes},
      Items.Edge maxDepth depth tokens front back rest →
        Items maxDepth depth tokens (front ++ back) rest
  | _, _, _, _, _, .first edge between others => by
    simpa using Items.cons (Item.Edge.item edge) between others
  | _, _, _, _, _, .later first between edge => by
    simpa using Items.cons (by simpa using first) (by simpa using between) (Items.Edge.items edge)

end

/-- An edge of some tokens has something on one side. -/
theorem Items.Edge.ne_nil (h : Items.Edge maxDepth depth tokens front back rest) :
    front ++ back ≠ [] := by
  have items := h.items
  intro none
  rw [none] at items
  cases h with
  | first | later =>
    generalize nothing : ([] : Bytes) = source at items
    cases items with
    | cons first =>
      obtain ⟨byte, tail, rfl, -⟩ := first.exists_leading
      simp at nothing

theorem IsStatement.Edge.isStatement {statement : Statement}
    (h : IsStatement.Edge maxDepth statement front back rest) :
    IsStatement maxDepth statement (front ++ back) rest := by
  cases h with
  | closed edge => simpa using IsStatement.closed edge.items
  | last edge =>
    refine .last ?_ edge.items
    cases edge <;> simp
  | semicolon items => exact .closed items
  | ended items => simpa using IsStatement.closed items

theorem Statements.Edge.statements {statements : List Statement}
    (h : Statements.Edge maxDepth statements front back) :
    Statements maxDepth statements (front ++ back) := by
  induction h with
  | first edge between others => simpa using Statements.cons edge.isStatement between others
  | later first between _ ih => simpa using Statements.cons first between ih

theorem Statements.Edge.ne_nil {statements : List Statement}
    (h : Statements.Edge maxDepth statements front back) : front ++ back ≠ [] := by
  cases h with
  | first edge =>
    have := edge.isStatement.ne_nil
    simp at this ⊢
    tauto
  | later first =>
    have := first.ne_nil
    simp [this]

/-! ## Blanks and separators -/

theorem Blanks.append {more : Bytes} (h : Blanks source (more ++ rest))
    (others : Blanks more rest) : Blanks (source ++ more) rest := by
  generalize behind : more ++ rest = rest' at h
  induction h with
  | nil => exact others
  | @cons source further _ first _ ih =>
    rw [List.append_assoc]
    refine .cons ?_ (ih behind)
    rwa [List.append_assoc, behind]

namespace Separator

/-- **Separators are blanks**, whatever is behind them. -/
theorem blanks (h : Separator added) : Blanks added rest := by
  induction h with
  | nil => exact .nil
  | @space byte others space _ ih => exact .cons (.space space) ih
  | line inside _ ih => exact .cons (.comment (.line inside)) ih
  | block inside _ ih => exact .cons (.comment (.block inside)) ih

/-- They come in front of blanks, -/
theorem blanks_append {blanks : Bytes} (h : Separator added) (others : Blanks blanks rest) :
    Blanks (added ++ blanks) rest :=
  .append h.blanks others

/-- and behind blanks that have something behind them. -/
theorem append_blanks {blanks : Bytes} (h : Separator added) (others : Blanks blanks rest)
    (ne_nil : rest ≠ []) : Blanks (blanks ++ added) rest :=
  .append (others.of_ne_nil ne_nil) h.blanks

/-- **Separators begin with no byte that a token begins with.** -/
theorem nil_or_head (h : Separator added) :
    added = [] ∨ ∃ byte more, added = byte :: more ∧ ¬ Leads byte := by
  cases h with
  | nil => exact .inl rfl
  | space space => exact .inr ⟨_, _, rfl, fun leads => leads.space space⟩
  | line => exact .inr ⟨_, _, rfl, fun leads => leads.dash rfl⟩
  | block => exact .inr ⟨_, _, rfl, fun leads => leads.slash rfl⟩

end Separator

/-! ## In front of other bytes -/

/-- **What ends in front of some bytes** ends in front of separators too, wherever
these are put. -/
theorem Separator.endsToo (h : Separator added) (front back : Bytes) :
    EndsToo (front ++ back) (front ++ (added ++ back)) := by
  refine .append ?_ front
  rcases h.nil_or_head with rfl | ⟨byte, more, rfl, apart⟩
  · exact .refl back
  · refine .stop ?_
    rintro _ ⟨⟩
    exact apart

/-- **A token** is one in front of separators. -/
theorem Item.insert (separator : Separator added) (h : Item maxDepth depth token source rest)
    (front : Bytes) (split : rest = front ++ back) :
    Item maxDepth depth token source (front ++ (added ++ back)) :=
  h.of_endsToo (split ▸ separator.endsToo front back)

/-- So are some tokens, if there is something behind them. -/
theorem Items.insert (separator : Separator added)
    (h : Items maxDepth depth tokens source rest) (front : Bytes) (split : rest = front ++ back)
    (ne_nil : rest ≠ []) : Items maxDepth depth tokens source (front ++ (added ++ back)) :=
  h.of_endsToo (split ▸ separator.endsToo front back) ne_nil

/-! ## Adding separators at an edge -/

/-- Separators behind some tokens join the blanks behind the last of them. -/
theorem Items.append_separator {maxDepth : Nat} {added : Bytes} (separator : Separator added) :
    ∀ {depth : Nat} {tokens : List Token} {source rest : Bytes},
      Items maxDepth depth tokens source rest → rest ≠ [] →
        source = [] ∨ Items maxDepth depth tokens (source ++ added) rest
  | _, _, _, _, .nil, _ => .inl rfl
  | _, _, _, rest, @Items.cons _ _ _ _ source blanks more _ first between others, ne_nil => by
    right
    have first' : Item maxDepth _ _ source ((blanks ++ more) ++ (added ++ rest)) :=
      first.insert separator (blanks ++ more) (List.append_assoc ..).symm
    rcases Items.append_separator separator others ne_nil with rfl | others'
    · have between' : Blanks (blanks ++ added) rest := separator.append_blanks between ne_nil
      simpa using Items.cons (by simpa using first') (by simpa using between') others
    · have between' : Blanks blanks (more ++ added ++ rest) :=
        between.of_ne_nil (by simp [ne_nil])
      simpa using Items.cons (by simpa using first') (by simpa using between') others'

mutual

/-- **At an edge of a token** separators can be added, if it is not where the
token begins or ends. -/
theorem Item.Edge.separate {maxDepth : Nat} {added : Bytes} (separator : Separator added) :
    ∀ {depth : Nat} {token : Token} {front back rest : Bytes},
      Item.Edge maxDepth depth token front back rest →
        front = [] ∨ back = [] ∨ Item maxDepth depth token (front ++ (added ++ back)) rest
  | _, _, _, _, _, .begins _ => .inl rfl
  | _, _, _, _, _, .ends _ => .inr (.inl rfl)
  | _, _, _, _, _, .opened room leading inside => by
    refine .inr (.inr ?_)
    simpa using Item.group room (separator.blanks_append leading) inside
  | _, _, _, _, _, .closing room leading inside => by
    refine .inr (.inr ?_)
    rcases Items.append_separator separator inside (by simp) with rfl | inside'
    · simpa using Item.group room (separator.append_blanks leading (by simp)) inside
    · simpa using Item.group room (leading.of_ne_nil (by simp)) inside'
  | _, _, _, _, _, .inside room leading edge => by
    refine .inr (.inr ?_)
    rcases Items.Edge.separate separator edge with rfl | inside
    · simpa using Item.group room (separator.append_blanks leading (by simp)) edge.items
    · simpa using Item.group room (leading.of_ne_nil (by simp)) inside

/-- At an edge of some tokens they can be added, if it is not where the first of
them begins. -/
theorem Items.Edge.separate {maxDepth : Nat} {added : Bytes} (separator : Separator added) :
    ∀ {depth : Nat} {tokens : List Token} {front back rest : Bytes},
      Items.Edge maxDepth depth tokens front back rest →
        front = [] ∨ Items maxDepth depth tokens (front ++ (added ++ back)) rest
  | _, _, _, _, _, .first edge between others => by
    rcases Item.Edge.separate separator edge with rfl | rfl | first
    · exact .inl rfl
    · have item := edge.item.insert separator [] rfl
      have between' := separator.blanks_append between
      right
      simpa using Items.cons (by simpa using item) between' others
    · right
      simpa using Items.cons first between others
  | _, _, _, _, _, @Items.Edge.later _ _ _ _ source blanks front back rest first between edge => by
    have ne_nil := List.append_ne_nil_of_left_ne_nil edge.ne_nil rest
    have first' : Item maxDepth _ _ source (blanks ++ front ++ (added ++ (back ++ rest))) :=
      first.insert separator (blanks ++ front) (by simp)
    right
    rcases Items.Edge.separate separator edge with rfl | others
    · have between' := separator.append_blanks between ne_nil
      simpa using Items.cons (by simpa using first') between' edge.items
    · have between' : Blanks blanks (front ++ (added ++ back) ++ rest) := between.of_ne_nil ne_nil
      simpa using Items.cons (by simpa using first') (by simpa using between') others

end

/-- **At an edge of a statement** they can be added, if it is not where the
statement begins, nor behind its semicolon. -/
theorem IsStatement.Edge.separate {statement : Statement} (separator : Separator added)
    (h : IsStatement.Edge maxDepth statement front back rest) :
    front = [] ∨ (back = [] ∧ IsStatement maxDepth statement front (added ++ rest))
      ∨ IsStatement maxDepth statement (front ++ (added ++ back)) rest := by
  cases h with
  | closed edge =>
    rcases edge.separate separator with rfl | items
    · exact .inl rfl
    · refine .inr (.inr ?_)
      simpa using IsStatement.closed items
  | last edge =>
    rcases edge.separate separator with rfl | items
    · exact .inl rfl
    · refine .inr (.inr (.last ?_ items))
      cases edge <;> simp
  | semicolon items =>
    rcases Items.append_separator separator items (by simp) with rfl | items'
    · exact .inl rfl
    · refine .inr (.inr ?_)
      simpa using IsStatement.closed items'
  | ended items =>
    exact .inr (.inl ⟨rfl, .closed (items.insert separator [ascii ';'] rfl (by simp))⟩)

theorem Statements.Edge.separate {statements : List Statement} (separator : Separator added)
    (h : Statements.Edge maxDepth statements front back) :
    front = [] ∨ Statements maxDepth statements (front ++ (added ++ back)) := by
  induction h with
  | @first statement statements front back blanks more edge between others =>
    rcases edge.separate separator with rfl | ⟨rfl, first⟩ | first
    · exact .inl rfl
    · right
      have between' := separator.blanks_append between
      simpa using Statements.cons (by simpa using first) between' others
    · right
      simpa using Statements.cons first between others
  | @later statement statements source blanks front back first between edge ih =>
    have first' : IsStatement maxDepth statement source (blanks ++ front ++ (added ++ back)) :=
      first.of_rest fun none => absurd none (by simpa using fun _ => edge.ne_nil)
    right
    rcases ih with rfl | others
    · have between' := separator.append_blanks between edge.ne_nil
      simpa using Statements.cons (by simpa using first') between' edge.statements
    · have between' : Blanks blanks (front ++ (added ++ back)) := between.of_ne_nil edge.ne_nil
      simpa using Statements.cons (by simpa using first') between' others

/-- **At an edge of a dump** separators can be added. -/
theorem Dump.Edge.separate {statements : List Statement} (separator : Separator added)
    (h : Dump.Edge maxDepth statements front back) :
    Dump maxDepth statements (front ++ (added ++ back)) := by
  cases h with
  | begins dump =>
    cases dump with
    | intro leading inside => simpa using Dump.intro (separator.blanks_append leading) inside
  | inside leading edge =>
    rcases edge.separate separator with rfl | inside
    · simpa using Dump.intro (separator.append_blanks leading edge.ne_nil) edge.statements
    · simpa using Dump.intro (leading.of_ne_nil edge.ne_nil) inside

theorem Dump.Edge.dump {statements : List Statement}
    (h : Dump.Edge maxDepth statements front back) : Dump maxDepth statements (front ++ back) := by
  cases h with
  | begins dump => exact dump
  | inside leading edge => simpa using Dump.intro leading edge.statements

/-- **The places of a dump where something ends or begins.** -/
def IsEdge (maxDepth : Nat) (dump : Bytes) (offset : Nat) : Prop :=
  ∃ statements, Dump.Edge maxDepth statements (dump.take offset) (dump.drop offset)

end Grammar

open Grammar

namespace Reader

/-- **Spaces and comments make no difference** where something ends or begins in
a dump: with them it is read as the same statements. -/
theorem collect_separated {bytes : Array UInt8} {settings : Settings}
    {statements : List Statement} (read : (ofBytes bytes settings).collect = .ok statements)
    {offset : Nat} (edge : IsEdge settings.maxDepth bytes.toList offset) {added : Bytes}
    (separator : Separator added) :
    (ofBytes (bytes.toList.take offset ++ (added ++ bytes.toList.drop offset)).toArray
      settings).collect = .ok statements := by
  obtain ⟨statements', edge⟩ := edge
  -- what is read tells which derivation it is
  have derived := edge.dump
  rw [List.take_append_drop] at derived
  obtain rfl : statements' = statements :=
    Except.ok.inj ((collect_of_dump derived).symm.trans read)
  exact collect_of_dump (edge.separate separator)

/-- A number and a point in a group, and between them a comment with a quote and
a parenthesis in it. -/
theorem collect_separated_point :
    let bytes := #[ascii '(', ascii '1', ascii '.', ascii ')']
    let added := ascii '/' :: ascii '*' :: ([ascii '\x27', ascii ')'] ++ [ascii '*', ascii '/'])
    let statement : Statement := ⟨[.group [.delimiter .leftParen, .integer 1, .delimiter .dot,
      .delimiter .rightParen]]⟩
    (ofBytes bytes).collect = .ok [statement] ∧ IsEdge 256 bytes.toList 2 ∧ Separator added
      ∧ (ofBytes (bytes.toList.take 2 ++ (added ++ bytes.toList.drop 2)).toArray).collect
        = .ok [statement] := by
  intro bytes added statement
  have one : Item 256 1 (.integer 1) [ascii '1'] ([] ++ ([ascii '.'] ++ [ascii ')'])) := by
    have ends : Ends IsDigit [ascii '.', ascii ')'] := by
      rintro _ ⟨⟩
      decide
    have whole : ¬ StartsFraction [ascii '.', ascii ')'] := by
      rintro ⟨_, _, ⟨⟩, digit⟩
      exact absurd digit (by decide)
    have digits : Digits [ascii '1'] := ⟨by simp, List.forall_mem_singleton.2 (by decide)⟩
    exact .lexeme (.integer digits ends whole (by decide))
  have point : Items 256 1 [.delimiter .dot] ([ascii '.'] ++ ([] ++ [])) [ascii ')'] :=
    .cons (.lexeme (.mark (by decide))) .nil .nil
  have inside : Items.Edge 256 1 [.integer 1, .delimiter .dot] [ascii '1']
      ([] ++ ([] ++ [ascii '.'])) [ascii ')'] := .first (.ends one) .nil point
  have group : Item.Edge 256 0 (.group (.delimiter .leftParen ::
      ([.integer 1, .delimiter .dot] ++ [.delimiter .rightParen])))
      (ascii '(' :: ([] ++ [ascii '1'])) ([ascii '.'] ++ [ascii ')']) ([] ++ ([] ++ [])) :=
    .inside (by decide) .nil inside
  have statements : Statements.Edge 256 [statement] [ascii '(', ascii '1']
      ([ascii '.', ascii ')'] ++ ([] ++ [])) := .first (.last (.first group .nil .nil)) .nil .nil
  have edge : Dump.Edge 256 [statement] ([] ++ [ascii '(', ascii '1'])
      ([ascii '.', ascii ')'] ++ ([] ++ [])) := .inside .nil statements
  have read : (ofBytes bytes).collect = .ok [statement] := collect_of_dump edge.dump
  have closed : ¬ [ascii '*', ascii '/'] <:+: [ascii '\x27', ascii ')'] := by decide
  have separator : Separator added := .block closed .nil
  exact ⟨read, ⟨_, edge⟩, separator, collect_separated read ⟨_, edge⟩ separator⟩

end Reader

end TableDump
