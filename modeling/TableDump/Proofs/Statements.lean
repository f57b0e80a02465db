import Mathlib
import TableDump.Proofs.Lexemes
import TableDump.Statement.Reader

/-!
# A dump is read as its grammar says

Groups make the grammar of tokens recursive, and the scan of a list of tokens
follows it: a list ends with its closing mark, or begins with a token, which may
be a group with a list inside. So recognition is proved by one induction on the
fuel of that scan, in which both the list inside of a group and the list behind
a token are shorter. Statements and dumps follow in the same way.

That the scan takes no token too many rests on first bytes: what ends a list
begins no token, and neither of them begins a blank.
-/

namespace TableDump

open Grammar
open InMemory (between)

variable {before : Bytes} {maxDepth depth : Nat}

namespace Grammar

/-! ## Items -/

/-- A token shows at its first byte that it is one. -/
theorem Item.exists_leading {token : Token} {source rest : Bytes}
    (h : Item maxDepth depth token source rest) :
    ∃ byte tail, source = byte :: tail ∧ Leads byte := by
  cases h with
  | lexeme lexeme =>
    obtain ⟨byte, tail, rfl, leads, -⟩ := lexeme.exists_leading
    exact ⟨byte, tail, rfl, leads⟩
  | group =>
    exact ⟨_, _, rfl, by decide⟩

/-- No lexeme begins with a parenthesis. -/
theorem Lexeme.head_ne_leftParen {token : Token} {source rest tail : Bytes}
    (h : Lexeme token source rest) : ascii '(' :: tail ≠ source ++ rest := by
  obtain ⟨byte, more, rfl, -, other⟩ := h.exists_leading
  rintro ⟨⟩
  exact other rfl

/-- **A list of tokens with what ends it**: its closing mark, or outside all
groups the end of the input. -/
inductive Closed (maxDepth depth : Nat) : List Token → (source rest : Bytes) → Prop where
  | mark {tokens : List Token} {source rest : Bytes}
      (items : Items maxDepth depth tokens source (ascii (Settings.closing depth) :: rest)) :
      Closed maxDepth depth tokens (source ++ [ascii (Settings.closing depth)]) rest
  | atEnd {tokens : List Token} {source : Bytes} (outermost : depth = 0)
      (items : Items maxDepth depth tokens source []) : Closed maxDepth depth tokens source []

/-- Neither closing mark begins a token. -/
theorem Leads.ne_closing {byte : UInt8} (h : Leads byte) :
    byte ≠ ascii (Settings.closing depth) := by
  unfold Settings.closing
  split
  · exact h.semicolon
  · exact h.rightParen

/-- A closing mark begins no blank. -/
theorem settled_closing (rest : Bytes) : Settled (ascii (Settings.closing depth) :: rest) := by
  unfold Settings.closing
  split <;> exact .of_head (by decide) (by decide) (by decide)

/-- One more token in front. -/
theorem Closed.cons {token : Token} {tokens : List Token} {source blanks more rest : Bytes}
    (first : Item maxDepth depth token source (blanks ++ (more ++ rest)))
    (blank : Blanks blanks (more ++ rest)) (others : Closed maxDepth depth tokens more rest) :
    Closed maxDepth depth (token :: tokens) (source ++ (blanks ++ more)) rest := by
  cases others with
  | @mark more _ items =>
    rw [← List.append_assoc blanks, ← List.append_assoc source]
    refine .mark (.cons ?_ ?_ items)
    · simpa using first
    · simpa using blank
  | atEnd outermost items =>
    exact .atEnd outermost (.cons first blank items)

/-- **A list of tokens is empty or begins with a token.** -/
theorem Closed.cases_tokens {tokens : List Token} {source rest : Bytes}
    (h : Closed maxDepth depth tokens source rest) :
    (tokens = [] ∧ (source = [ascii (Settings.closing depth)]
        ∨ depth = 0 ∧ source = [] ∧ rest = []))
      ∨ ∃ token others front blanks more, tokens = token :: others
          ∧ source = front ++ (blanks ++ more)
          ∧ Item maxDepth depth token front (blanks ++ (more ++ rest))
          ∧ Blanks blanks (more ++ rest) ∧ Closed maxDepth depth others more rest := by
  cases h with
  | mark items =>
    cases items with
    | nil => exact .inl ⟨rfl, .inl rfl⟩
    | @cons _ token others front blanks more _ first between rest =>
      refine .inr ⟨token, others, front, blanks, more ++ [ascii (Settings.closing depth)], rfl,
        by simp, by simpa using first, by simpa using between, .mark rest⟩
  | atEnd outermost items =>
    cases items with
    | nil => exact .inl ⟨rfl, .inr ⟨outermost, rfl, rfl⟩⟩
    | cons first between others =>
      exact .inr ⟨_, _, _, _, _, rfl, rfl, first, between, .atEnd outermost others⟩

/-- Where no token can begin, the list is empty. -/
theorem Closed.eq_nil {tokens : List Token} {source rest : Bytes}
    (h : Closed maxDepth depth tokens source rest) (ends : Ends Leads (source ++ rest)) :
    tokens = [] ∧ (source = [ascii (Settings.closing depth)]
      ∨ depth = 0 ∧ source = [] ∧ rest = []) := by
  refine h.cases_tokens.resolve_right ?_
  rintro ⟨token, others, front, blanks, more, -, rfl, item, -, -⟩
  obtain ⟨byte, tail, rfl, leads⟩ := item.exists_leading
  exact ends byte rfl leads

/-- **No blank begins a list of tokens.** -/
theorem Closed.settled {tokens : List Token} {source rest : Bytes}
    (h : Closed maxDepth depth tokens source rest) : Settled (source ++ rest) := by
  rcases h.cases_tokens with ⟨-, rfl | ⟨-, rfl, rfl⟩⟩ | ⟨_, _, _, _, _, -, rfl, first, -, -⟩
  · exact settled_closing rest
  · exact settled_nil
  · obtain ⟨byte, tail, rfl, leads⟩ := first.exists_leading
    exact .of_head leads.space leads.dash leads.slash

end Grammar

/-! ## Lists of tokens -/

namespace Settings

variable (settings : Settings)

/-- **Reading a group recognizes one**, if reading what is inside does. -/
theorem recognizes_scanGroup {inside : Scan (List Token)} {tail : Bytes}
    (h : ∀ source rest, tail = source ++ rest →
      inside.Recognizes (before ++ [ascii '('] ++ source) rest
        (Closed settings.maxDepth (depth + 1))) :
    (settings.scanGroup depth inside).Recognizes before (ascii '(' :: tail)
      (Item settings.maxDepth depth) := by
  unfold scanGroup
  split
  case isTrue deep =>
    refine .of_error (settings.run_malformed (.nestingTooDeep settings.maxDepth) before _) ?_
    rintro token source rest split (lexeme | ⟨room⟩)
    · exact lexeme.head_ne_leftParen split
    · exact absurd room (Nat.not_lt.2 deep)
  case isFalse room =>
    have advanced : (Scan.advance 1).run (between before ([ascii '('] ++ tail)) = (.ok (), _) :=
      Scan.run_advance [ascii '('] tail rfl rfl
    refine (Scan.Recognizes.moved advanced
      ((settings.recognizes_skipBlanks (before ++ [ascii '(']) tail).bind
        fun _ front others split _ => (h front others split).bind
          fun tokens _ _ _ _ => .pure _)).congr ?_
    intro token source rest split
    constructor
    · rintro ⟨_, rfl, _, blanks, _, rfl, ⟨leading, -⟩, tokens, _, _, rfl, closed, rfl, rfl⟩
      rw [List.append_nil] at leading ⊢
      cases closed with
      | @mark source _ items =>
        rw [List.append_assoc] at leading
        exact .group (Nat.lt_of_not_le room) leading items
      | atEnd outermost => exact absurd outermost (Nat.succ_ne_zero depth)
    · intro item
      cases item with
      | lexeme lexeme => exact absurd split lexeme.head_ne_leftParen
      | @group _ tokens blanks source _ room leading inside =>
        have closed : Closed settings.maxDepth (depth + 1) tokens (source ++ [ascii ')']) rest :=
          .mark inside
        refine ⟨blanks ++ (source ++ [ascii ')']), rfl, (), blanks, source ++ [ascii ')'], rfl,
          ⟨?_, closed.settled⟩, tokens, source ++ [ascii ')'], [], by simp, closed, rfl, rfl⟩
        simpa using leading

/-- **Behind a token the list goes on**, where it does not end. -/
theorem recognizes_tokens_behind {scan : Scan Token} {others : Token → Scan (List Token)}
    {input : Bytes} {found : List Token} (ne_nil : input ≠ [])
    (ne_closing : ∀ rest, input ≠ ascii (closing depth) :: rest)
    (hscan : scan.Recognizes before input (Item settings.maxDepth depth))
    (hothers : ∀ token before source rest, input = source ++ rest → source ≠ [] →
      (others token).Recognizes before rest fun value source rest =>
        ∃ tokens, value = (token :: found).reverse ++ tokens
          ∧ Closed settings.maxDepth depth tokens source rest) :
    (scan >>= fun token => settings.skipBlanks >>= fun _ => others token).Recognizes before input
      fun value source rest => ∃ tokens, value = found.reverse ++ tokens
        ∧ Closed settings.maxDepth depth tokens source rest := by
  refine (hscan.bind fun token front rest split item =>
    (settings.recognizes_skipBlanks _ rest).bind fun _ blanks more split' _ => hothers token _
      (front ++ blanks) more (by rw [split, split', List.append_assoc]) ?_).congr ?_
  · obtain ⟨byte, tail, rfl, -⟩ := item.exists_leading
    simp
  · intro value source rest split
    constructor
    · rintro ⟨token, front, _, rfl, item, _, blanks, more, rfl, ⟨leading, -⟩, tokens, rfl, closed⟩
      refine ⟨token :: tokens, by simp, closed.cons ?_ leading⟩
      simpa using item
    · rintro ⟨tokens, rfl, closed⟩
      rcases closed.cases_tokens with ⟨-, rfl | ⟨-, rfl, rfl⟩⟩
        | ⟨token, others, front, blanks, more, rfl, rfl, item, leading, closed⟩
      · exact absurd split (ne_closing rest)
      · exact absurd split ne_nil
      · refine ⟨token, front, blanks ++ more, rfl, ?_, (), blanks, more, rfl,
          ⟨leading, closed.settled⟩, others, by simp, closed⟩
        simpa using item

/-- **Where the input ends**, a list ends outside all groups only. -/
theorem recognizes_tokens_atEnd (before : Bytes) (found : List Token) :
    (if depth = 0 then pure found.reverse
      else settings.malformed (.missingDelimiter (closing depth))).Recognizes before []
      fun value source rest => ∃ tokens, value = found.reverse ++ tokens
        ∧ Closed settings.maxDepth depth tokens source rest := by
  have nothing : ∀ {value source rest}, [] = source ++ rest →
      Closed settings.maxDepth depth value source rest → value = [] ∧ depth = 0 := by
    intro value source rest split closed
    obtain ⟨rfl, rfl⟩ := List.append_eq_nil_iff.1 split.symm
    obtain ⟨rfl, mark | ⟨outermost, -⟩⟩ := closed.eq_nil (by simp [Ends])
    · simp at mark
    · exact ⟨rfl, outermost⟩
  split
  case isTrue outermost =>
    refine (Scan.Recognizes.pure _).congr fun value source rest split => ?_
    constructor
    · rintro ⟨rfl, rfl⟩
      obtain rfl : rest = [] := split.symm
      exact ⟨[], by simp, .atEnd outermost .nil⟩
    · rintro ⟨tokens, rfl, closed⟩
      obtain ⟨rfl, -⟩ := nothing split closed
      exact ⟨by simp, (List.append_eq_nil_iff.1 split.symm).1⟩
  case isFalse inside =>
    refine .of_error (settings.run_malformed (.missingDelimiter (closing depth)) before []) ?_
    rintro value source rest split ⟨tokens, -, closed⟩
    exact inside (nothing split closed).2

/-- **At its closing mark**, a list ends. -/
theorem recognizes_tokens_closing (before tail : Bytes) (found : List Token) :
    (Scan.advance 1 >>= fun _ => pure found.reverse).Recognizes before
      (ascii (closing depth) :: tail) fun value source rest =>
        ∃ tokens, value = found.reverse ++ tokens
          ∧ Closed settings.maxDepth depth tokens source rest := by
  have advanced : (Scan.advance 1).run (between before ([ascii (closing depth)] ++ tail))
      = (.ok (), _) :=
    Scan.run_advance [ascii (closing depth)] tail rfl rfl
  refine (Scan.Recognizes.moved advanced (.pure found.reverse)).congr
    fun value source rest split => ?_
  constructor
  · rintro ⟨_, rfl, rfl, rfl⟩
    exact ⟨[], by simp, .mark .nil⟩
  · rintro ⟨tokens, rfl, closed⟩
    have none : Ends Leads (source ++ rest) := by
      rw [← split]
      rintro _ ⟨⟩ leads
      exact leads.ne_closing rfl
    obtain ⟨rfl, rfl | ⟨-, rfl, rfl⟩⟩ := closed.eq_nil none
    · exact ⟨[], rfl, by simp, rfl⟩
    · simp at split

/-- **Reading tokens recognizes a list that is closed.** -/
theorem recognizes_tokensWithin {fuel : Nat} {input : Bytes} (h : input.length < fuel)
    (found : List Token) :
    (settings.tokensWithin fuel depth found).Recognizes before input fun value source rest =>
      ∃ tokens, value = found.reverse ++ tokens
        ∧ Closed settings.maxDepth depth tokens source rest := by
  -- both the list inside of a group and the list behind a token are of shorter input
  induction fuel generalizing before input depth found with
  | zero => exact absurd h (Nat.not_lt_zero _)
  | succ fuel ih =>
    unfold tokensWithin
    refine .asked (Scan.run_peek 0) ?_
    rcases input with _ | ⟨byte, tail⟩
    · exact settings.recognizes_tokens_atEnd before found
    · dsimp only [List.getElem?_cons_zero]
      split
      case isTrue ends =>
        obtain rfl : byte = ascii (closing depth) := by simpa using ends
        exact settings.recognizes_tokens_closing before tail found
      case isFalse goes =>
        have ne_closing : ∀ rest, byte :: tail ≠ ascii (closing depth) :: rest := by
          rintro rest ⟨⟩
          exact goes (by simp)
        have others : ∀ token before source rest, byte :: tail = source ++ rest → source ≠ [] →
            (settings.tokensWithin fuel depth (token :: found)).Recognizes before rest
              fun value source rest => ∃ tokens, value = (token :: found).reverse ++ tokens
                ∧ Closed settings.maxDepth depth tokens source rest := by
          intro token before source rest split ne_nil
          refine ih ?_ (token :: found)
          have := List.length_pos_of_ne_nil ne_nil
          rw [split, List.length_append] at h
          omega
        split
        case isTrue opens =>
          obtain rfl : byte = ascii '(' := by simpa using opens
          refine settings.recognizes_tokens_behind (by simp) ne_closing
            (settings.recognizes_scanGroup fun source rest split => ?_) others
          have shorter : rest.length < fuel := by
            rw [split, List.length_cons, List.length_append] at h
            omega
          exact (ih shorter []).congr fun value source rest split => by simp
        case isFalse simple =>
          refine settings.recognizes_tokens_behind (by simp) ne_closing
            ((settings.recognizes_scanSimple rfl).congr fun token source rest split => ?_) others
          refine ⟨.lexeme, fun item => ?_⟩
          cases item with
          | lexeme lexeme => exact lexeme
          | group =>
            cases split
            simp at simple

end Settings

/-! ## Statements -/

namespace Grammar

/-- A statement is a list of tokens outside all groups that takes something. -/
theorem isStatement_iff {statement : Statement} {source rest : Bytes} :
    IsStatement maxDepth statement source rest
      ↔ Closed maxDepth 0 statement.tokens source rest ∧ source ++ rest ≠ [] := by
  constructor
  · rintro (⟨items⟩ | ⟨ne_nil, items⟩)
    · exact ⟨.mark items, by simp⟩
    · refine ⟨.atEnd rfl items, ?_⟩
      cases items with
      | nil => exact absurd rfl ne_nil
      | cons first =>
        obtain ⟨byte, tail, rfl, -⟩ := first.exists_leading
        simp
  · obtain ⟨tokens⟩ := statement
    rintro ⟨⟨items⟩ | ⟨-, items⟩, ne_nil⟩
    · exact .closed items
    · refine .last ?_ items
      rintro rfl
      cases items
      exact ne_nil rfl

/-- **No statement is empty.** -/
theorem IsStatement.ne_nil {statement : Statement} {source rest : Bytes}
    (h : IsStatement maxDepth statement source rest) : source ≠ [] := by
  obtain ⟨closed, ne_nil⟩ := isStatement_iff.1 h
  rcases closed.cases_tokens with ⟨-, rfl | ⟨-, rfl, rfl⟩⟩ | ⟨_, _, _, _, _, -, rfl, first, -, -⟩
  · simp
  · exact absurd rfl ne_nil
  · obtain ⟨byte, tail, rfl, -⟩ := first.exists_leading
    simp

/-- A dump without statements is blank. -/
theorem dump_nil_iff {input : Bytes} : Dump maxDepth [] input ↔ Blanks input [] := by
  constructor
  · rintro ⟨leading, ⟨⟩⟩
    simpa using leading
  · intro blanks
    have nothing : Statements maxDepth [] [] := .nil
    simpa using Dump.intro (by simpa using blanks) nothing

/-- **The first statement of a dump** stands behind blanks, in front of another
dump. -/
theorem dump_cons_iff {statement : Statement} {statements : List Statement} {input : Bytes} :
    Dump maxDepth (statement :: statements) input
      ↔ ∃ blanks source rest, input = blanks ++ (source ++ rest) ∧ Blanks blanks (source ++ rest)
        ∧ IsStatement maxDepth statement source rest ∧ Dump maxDepth statements rest := by
  constructor
  · rintro ⟨leading, inside⟩
    cases inside with
    | cons first between others => exact ⟨_, _, _, rfl, leading, first, .intro between others⟩
  · rintro ⟨blanks, source, _, rfl, leading, first, ⟨between, others⟩⟩
    exact .intro leading (.cons first between others)

end Grammar

/-- **Reading a statement recognizes one behind blanks**, or that there is none
left. -/
theorem Settings.recognizes_scanStatement (settings : Settings) (before input : Bytes) :
    settings.scanStatement.Recognizes before input fun value source rest =>
      (value = none ∧ rest = [] ∧ Blanks source [])
        ∨ ∃ statement blanks more, value = some statement ∧ source = blanks ++ more
            ∧ Blanks blanks (more ++ rest) ∧ IsStatement settings.maxDepth statement more rest := by
  have behind : ∀ before rest, (Scan.atEnd >>= fun ended =>
      if ended then pure none
      else Scan.left >>= fun left => settings.tokensWithin (left + 1) 0 [] >>= fun tokens =>
        pure (some { tokens })).Recognizes before rest fun value source rest =>
          (value = none ∧ source = [] ∧ rest = [])
            ∨ ∃ statement, value = some statement
                ∧ IsStatement settings.maxDepth statement source rest := by
    intro before rest
    refine .asked Scan.run_atEnd ?_
    split
    case isTrue ended =>
      obtain rfl : rest = [] := by simpa using ended
      refine (Scan.Recognizes.pure _).congr fun value source rest split => ?_
      obtain ⟨rfl, rfl⟩ := List.append_eq_nil_iff.1 split.symm
      constructor
      · rintro ⟨rfl, -⟩
        exact .inl ⟨rfl, rfl, rfl⟩
      · rintro (⟨rfl, -, -⟩ | ⟨statement, -, derived⟩)
        · exact ⟨rfl, rfl⟩
        · exact absurd rfl derived.ne_nil
    case isFalse goes =>
      refine .asked (Scan.run_left _) ?_
      rw [InMemory.left_between]
      refine ((settings.recognizes_tokensWithin (Nat.lt_succ_self _) []).bind
        fun tokens _ _ _ _ => .pure _).congr fun value source rest split => ?_
      have ne_nil : source ++ rest ≠ [] := by
        rw [← split]
        simpa using goes
      constructor
      · rintro ⟨_, source, _, rfl, ⟨tokens, rfl, closed⟩, rfl, rfl⟩
        right
        refine ⟨_, rfl, isStatement_iff.2 ⟨?_, ne_nil⟩⟩
        simpa using closed
      · rintro (⟨-, rfl, rfl⟩ | ⟨statement, rfl, derived⟩)
        · exact absurd rfl ne_nil
        · refine ⟨statement.tokens, source, [], by simp, ⟨statement.tokens, by simp, ?_⟩, rfl, rfl⟩
          exact (isStatement_iff.1 derived).1
  unfold scanStatement
  refine ((settings.recognizes_skipBlanks before input).bind fun _ blanks rest _ _ =>
    behind (before ++ blanks) rest).congr fun value source rest split => ?_
  constructor
  · rintro ⟨_, blanks, more, rfl, ⟨leading, -⟩, ⟨rfl, rfl, rfl⟩ | ⟨statement, rfl, derived⟩⟩
    · exact .inl ⟨rfl, rfl, by simpa using leading⟩
    · exact .inr ⟨statement, blanks, more, rfl, rfl, leading, derived⟩
  · rintro (⟨rfl, rfl, blank⟩ | ⟨statement, blanks, more, rfl, rfl, leading, derived⟩)
    · exact ⟨(), source, [], by simp, ⟨by simpa using blank, settled_nil⟩, .inl ⟨rfl, rfl, rfl⟩⟩
    · have settled := (isStatement_iff.1 derived).1.settled
      exact ⟨(), blanks, more, rfl, ⟨leading, settled⟩, .inr ⟨statement, rfl, derived⟩⟩

/-! ## Dumps -/

namespace Reader

/-- Where a dump begins, its first statement is read, if it has one. -/
theorem run_of_dump (before : Bytes) {settings : Settings} {statements : List Statement}
    {input : Bytes} (h : Dump settings.maxDepth statements input) :
    (statements = [] ∧ ∃ cursor, settings.scanStatement.run (between before input)
        = (.ok none, cursor))
      ∨ ∃ statement others source rest, statements = statement :: others
          ∧ input = source ++ rest ∧ source ≠ [] ∧ Dump settings.maxDepth others rest
          ∧ settings.scanStatement.run (between before input)
            = (.ok (some statement), between (before ++ source) rest) := by
  have recognizes := settings.recognizes_scanStatement before input
  cases statements with
  | nil =>
    refine .inl ⟨rfl, _, (recognizes none _).2 ⟨input, [], by simp, ?_, rfl⟩⟩
    exact .inl ⟨rfl, rfl, dump_nil_iff.1 h⟩
  | cons statement others =>
    obtain ⟨blanks, source, rest, rfl, leading, first, behind⟩ := dump_cons_iff.1 h
    refine .inr ⟨statement, others, blanks ++ source, rest, rfl, by simp,
      by simp [first.ne_nil], behind, ?_⟩
    refine (recognizes _ _).2 ⟨blanks ++ source, rest, by simp, .inr ?_, rfl⟩
    exact ⟨statement, blanks, source, rfl, rfl, leading, first⟩

/-- Reading on recognizes the rest of a dump. -/
theorem collectWithin_eq_ok_iff {fuel : Nat} {input : Bytes} (h : input.length < fuel)
    (settings : Settings) (count : Nat) (found statements : List Statement) :
    collectWithin fuel found
        { cursor := between before input, settings, statements := count } = .ok statements
      ↔ ∃ others, statements = found.reverse ++ others
          ∧ Dump settings.maxDepth others input := by
  induction fuel generalizing before input count found with
  | zero => exact absurd h (Nat.not_lt_zero _)
  | succ fuel ih =>
    have shorter : ∀ {source rest : Bytes}, input = source ++ rest → source ≠ [] →
        rest.length < fuel := by
      intro source rest split ne_nil
      have := List.length_pos_of_ne_nil ne_nil
      rw [split, List.length_append] at h
      omega
    rw [collectWithin, next]
    dsimp only [Bool.false_eq_true, if_false]
    constructor
    · have recognizes := settings.recognizes_scanStatement before input
      rcases ran : settings.scanStatement.run (between before input)
        with ⟨fault | (_ | statement), cursor⟩
      · rintro ⟨⟩
      · rintro ⟨⟩
        obtain ⟨source, rest, rfl, ⟨-, rfl, blank⟩ | ⟨_, _, _, absurd, -⟩, -⟩ :=
          (recognizes none cursor).1 ran
        · exact ⟨[], by simp, dump_nil_iff.2 (by simpa using blank)⟩
        · simp at absurd
      · obtain ⟨_, rest, rfl, ⟨absurd, -⟩ | ⟨_, blanks, source, ⟨⟩, rfl, leading, first⟩, rfl⟩ :=
          (recognizes (some statement) cursor).1 ran
        · simp at absurd
        · intro collected
          obtain ⟨others, rfl, behind⟩ :=
            (ih (shorter rfl (by simp [first.ne_nil])) _ _).1 collected
          exact ⟨statement :: others, by simp,
            dump_cons_iff.2 ⟨blanks, source, rest, by simp, leading, first, behind⟩⟩
    · rintro ⟨others, rfl, dump⟩
      rcases run_of_dump before dump with
        ⟨rfl, cursor, ran⟩ | ⟨statement, others, source, rest, rfl, split, ne_nil, behind, ran⟩
      · rw [ran]
        simp
      · rw [ran]
        exact (ih (shorter split ne_nil) _ _).2 ⟨others, by simp, behind⟩

/-- A reader of bytes stands at their beginning. -/
theorem collect_ofBytes (bytes : Array UInt8) (settings : Settings) :
    (Reader.ofBytes bytes settings).collect
      = collectWithin (bytes.toList.length + 1) []
          { cursor := between [] bytes.toList, settings, statements := 0 } := by
  show collectWithin (Cursor.left (between [] bytes.toList) + 1) []
      { cursor := between [] bytes.toList, settings, statements := 0 } = _
  rw [InMemory.left_between]

/-- **What derives the bytes of a dump is read from them.** -/
theorem collect_of_dump {bytes : Array UInt8} {settings : Settings}
    {statements : List Statement} (h : Dump settings.maxDepth statements bytes.toList) :
    (Reader.ofBytes bytes settings).collect = .ok statements := by
  rw [collect_ofBytes, collectWithin_eq_ok_iff (Nat.lt_succ_self _)]
  exact ⟨statements, rfl, h⟩

/-- **What is read from bytes derives them.** -/
theorem dump_of_collect {bytes : Array UInt8} {settings : Settings}
    {statements : List Statement}
    (h : (Reader.ofBytes bytes settings).collect = .ok statements) :
    Dump settings.maxDepth statements bytes.toList := by
  rw [collect_ofBytes, collectWithin_eq_ok_iff (Nat.lt_succ_self _)] at h
  obtain ⟨_, rfl, dump⟩ := h
  exact dump

/-- **A dump in memory is read exactly as its grammar says**: reading succeeds
with some statements if, and only if, they derive its bytes. So no dump has two
derivations, and what has none is refused. -/
theorem collect_ofBytes_eq_ok_iff (bytes : Array UInt8) (settings : Settings)
    (statements : List Statement) :
    (Reader.ofBytes bytes settings).collect = .ok statements
      ↔ Dump settings.maxDepth statements bytes.toList :=
  ⟨dump_of_collect, collect_of_dump⟩

end Reader

end TableDump
