import Mathlib
import TableDump.Proofs.Defects
import TableDump.Proofs.Recognition

/-!
# Blanks are skipped

Skipping takes all blanks that there are, and the grammar lets any number of
them be taken. The two agree because of what comes behind the blanks of a dump:
a place where no blank begins (`Grammar.Settled`). So skipping recognizes the
blanks in front of such a place.

A block comment that does not end is no blank, but it cannot be read over: the
place where it begins is not settled either, and there skipping fails, with a fault
that names the place (`Settings.run_malformed`).
-/

namespace TableDump

open Grammar
open InMemory (between)

/-! ## Classes of bytes -/

namespace Grammar

theorem isBlank_iff (byte : UInt8) : isBlank byte = true ↔ IsSpace byte := by
  simp only [isBlank, IsSpace, Bool.or_eq_true, beq_iff_eq, or_assoc]
  exact Iff.rfl

theorem isLetter_iff (byte : UInt8) : isLetter byte = true ↔ IsLetter byte := by
  simp only [isLetter, IsLetter, InRange, Bool.or_eq_true, Bool.and_eq_true, decide_eq_true_eq]
  exact Iff.rfl

theorem isDigit_iff (byte : UInt8) : isDigit byte = true ↔ IsDigit byte := by
  simp only [isDigit, IsDigit, InRange, Bool.and_eq_true, decide_eq_true_eq]
  exact Iff.rfl

theorem isWordByte_iff (byte : UInt8) : isWordByte byte = true ↔ IsWordByte byte := by
  simp only [isWordByte, IsWordByte, Bool.or_eq_true, beq_iff_eq, isLetter_iff, isDigit_iff,
    or_assoc]
  exact Iff.rfl

/-! ## Runs of bytes -/

section Runs

variable {member : UInt8 → Bool} {kind : UInt8 → Prop}

/-- A run that ends is all that the bytes begin with. -/
theorem takeWhile_run (h : ∀ byte, member byte = true ↔ kind byte) {run rest : Bytes}
    (bytes : ∀ byte ∈ run, kind byte) (ends : Ends kind rest) :
    (run ++ rest).takeWhile member = run := by
  rw [List.takeWhile_append_of_pos fun byte mem => (h byte).2 (bytes byte mem)]
  cases rest with
  | nil => simp
  | cons byte rest =>
    rw [List.takeWhile_cons_of_neg fun passes => ends byte rfl ((h byte).1 passes),
      List.append_nil]

theorem dropWhile_run (h : ∀ byte, member byte = true ↔ kind byte) {run rest : Bytes}
    (bytes : ∀ byte ∈ run, kind byte) (ends : Ends kind rest) :
    (run ++ rest).dropWhile member = rest := by
  rw [List.dropWhile_append_of_pos fun byte mem => (h byte).2 (bytes byte mem)]
  cases rest with
  | nil => rfl
  | cons byte rest =>
    exact List.dropWhile_cons_of_neg fun passes => ends byte rfl ((h byte).1 passes)

/-- Nothing else that ends is. -/
theorem run_unique (h : ∀ byte, member byte = true ↔ kind byte) {run run' rest rest' : Bytes}
    (bytes : ∀ byte ∈ run, kind byte) (ends : Ends kind rest) (bytes' : ∀ byte ∈ run', kind byte)
    (ends' : Ends kind rest') (same : run ++ rest = run' ++ rest') : run = run' ∧ rest = rest' := by
  have := takeWhile_run h bytes ends
  rw [same, takeWhile_run h bytes' ends'] at this
  subst this
  exact ⟨rfl, List.append_cancel_left same⟩

/-- Any bytes begin with a run that ends. -/
theorem exists_run (h : ∀ byte, member byte = true ↔ kind byte) (input : Bytes) :
    ∃ run rest, input = run ++ rest ∧ (∀ byte ∈ run, kind byte) ∧ Ends kind rest := by
  refine ⟨input.takeWhile member, input.dropWhile member, List.takeWhile_append_dropWhile.symm,
    fun byte mem => (h byte).1 (List.mem_takeWhile_imp mem), fun byte hhead hclass => ?_⟩
  have fails := List.head?_dropWhile_not member input
  rw [hhead] at fails
  exact Bool.false_ne_true (Eq.trans (Eq.symm fails) ((h byte).2 hclass))

/-- A run that stands behind some bytes ends where it ends. -/
theorem run_spanEnd_run (h : ∀ byte, member byte = true ↔ kind byte)
    {before input : Bytes} (front run rest : Bytes) {start : Nat}
    (split : input = front ++ (run ++ rest)) (hstart : front.length = start)
    (bytes : ∀ byte ∈ run, kind byte) (ends : Ends kind rest) :
    (Scan.spanEnd member start).run (between before input)
      = (.ok (start + run.length), between before input) := by
  subst split hstart
  rw [Scan.run_spanEnd, List.drop_left, takeWhile_run h bytes ends]

end Runs

/-- The first two of some bytes. -/
theorem pair_prefix_iff {first second : UInt8} {input : Bytes} :
    [first, second] <+: input ↔ input[0]? = some first ∧ input[1]? = some second := by
  rcases input with _ | ⟨byte, _ | ⟨other, input⟩⟩
  · simp
  · simp
  · simp only [List.cons_prefix_cons, List.nil_prefix, and_true, List.getElem?_cons_zero,
      List.getElem?_cons_succ, Option.some.injEq]
    exact and_congr eq_comm eq_comm

/-! ## Where no blank begins -/

/-- The end of the input is settled. -/
theorem settled_nil : Settled [] := ⟨by simp [Ends], by simp, by simp⟩

/-- So is a place where a byte stands that begins no blank. -/
theorem Settled.of_head {byte : UInt8} {rest : Bytes} (space : ¬ IsSpace byte)
    (dash : byte ≠ ascii '-') (slash : byte ≠ ascii '/') : Settled (byte :: rest) where
  space := by
    rintro _ ⟨⟩
    exact space
  line := by
    rw [List.cons_prefix_cons]
    exact fun h => dash h.1.symm
  block := by
    rw [List.cons_prefix_cons]
    exact fun h => slash h.1.symm

/-- A comment begins with no space. -/
theorem Comment.exists_cons {source rest : Bytes} (h : Comment source rest) :
    ∃ byte tail, source = byte :: tail ∧ ¬ IsSpace byte := by
  cases h <;> exact ⟨_, _, rfl, by decide⟩

/-- Spaces in front of blanks are blanks. -/
theorem Blanks.of_spaces {spaces more rest : Bytes} (bytes : ∀ byte ∈ spaces, IsSpace byte)
    (others : Blanks more rest) : Blanks (spaces ++ more) rest := by
  induction spaces with
  | nil => exact others
  | cons byte spaces ih =>
    have space : Blank [byte] (spaces ++ more ++ rest) := .space (bytes byte List.mem_cons_self)
    show Blanks ([byte] ++ (spaces ++ more)) rest
    exact .cons space (ih fun other mem => bytes other (List.mem_cons_of_mem byte mem))

/-- **Blanks begin with a run of spaces** and go on with a comment, if at all,
when they end at a settled place. -/
theorem Blanks.exists_spaces {source rest : Bytes} (h : Blanks source rest)
    (settled : Settled rest) :
    ∃ spaces more, source = spaces ++ more ∧ (∀ byte ∈ spaces, IsSpace byte)
      ∧ Ends IsSpace (more ++ rest)
      ∧ (more = [] ∨ ∃ comment others, more = comment ++ others
          ∧ Comment comment (others ++ rest) ∧ Blanks others rest) := by
  induction h with
  | nil => exact ⟨[], [], rfl, by simp, settled.space, .inl rfl⟩
  | @cons source more rest first others ih =>
    cases first with
    | @space byte _ space =>
      obtain ⟨spaces, more, rfl, bytes, ends, tail⟩ := ih settled
      refine ⟨byte :: spaces, more, rfl, ?_, ends, tail⟩
      rintro other (_ | ⟨_, mem⟩)
      · exact space
      · exact bytes other mem
    | comment comment =>
      refine ⟨[], source ++ more, rfl, by simp, ?_, .inr ⟨source, more, rfl, comment, others⟩⟩
      obtain ⟨byte, tail, rfl, space⟩ := comment.exists_cons
      rintro _ ⟨⟩
      exact space

end Grammar

/-! ## Comments -/

namespace Settings

variable (settings : Settings) {before : Bytes}

/-- Where reading cannot go on, the fault says so, and the cursor stays. -/
theorem run_malformed {α : Type} (cause : Malformation) (before input : Bytes) :
    (settings.malformed cause : Scan α).run (between before input)
      = (.error (settings.faultAt cause before input), between before input) := by
  rw [malformed, Scan.run_bind_ok (Scan.run_position _), Scan.run_bind_ok (Scan.run_preview _),
    Scan.run_fail]
  rfl

theorem run_skipComment_line {text rest : Bytes} (inside : ascii '\n' ∉ text) :
    settings.skipComment.run
        (between before (ascii '-' :: ascii '-' :: (text ++ [ascii '\n']) ++ rest))
      = (.ok true,
        between (before ++ ascii '-' :: ascii '-' :: (text ++ [ascii '\n'])) rest) := by
  have found : (Scan.find [ascii '\n'] 2).run
        (between before (ascii '-' :: ascii '-' :: (text ++ [ascii '\n']) ++ rest))
      = (.ok (some (2 + text.length)), _) :=
    Scan.run_find [ascii '-', ascii '-'] text rest (by simp) rfl
      (by simpa [List.singleton_infix_iff] using inside)
  unfold skipComment
  rw [Scan.run_bind_ok (Scan.run_peek 0), Scan.run_bind_ok (Scan.run_peek 1), if_pos (by simp),
    Scan.run_bind_ok found]
  dsimp only
  rw [Scan.run_bind_ok (Scan.run_advance _ _ rfl (by simp; omega)), Scan.run_pure]

theorem run_skipComment_lastLine {text : Bytes} (inside : ascii '\n' ∉ text) :
    settings.skipComment.run (between before (ascii '-' :: ascii '-' :: text ++ []))
      = (.ok true, between (before ++ ascii '-' :: ascii '-' :: text) []) := by
  have nowhere : (Scan.find [ascii '\n'] 2).run
        (between before (ascii '-' :: ascii '-' :: text)) = (.ok none, _) :=
    Scan.run_find_none (by simp) (by simpa [List.singleton_infix_iff] using inside)
  unfold skipComment
  rw [List.append_nil, Scan.run_bind_ok (Scan.run_peek 0), Scan.run_bind_ok (Scan.run_peek 1),
    if_pos (by simp), Scan.run_bind_ok nowhere]
  dsimp only
  rw [Scan.run_bind_ok Scan.run_skipRest, Scan.run_pure]

theorem run_skipComment_block {text rest : Bytes} (inside : ¬ [ascii '*', ascii '/'] <:+: text) :
    settings.skipComment.run
        (between before (ascii '/' :: ascii '*' :: (text ++ [ascii '*', ascii '/']) ++ rest))
      = (.ok true,
        between (before ++ ascii '/' :: ascii '*' :: (text ++ [ascii '*', ascii '/'])) rest) := by
  -- the star in front of the last byte does not end the comment sooner
  have further : ¬ [ascii '*', ascii '/'] <:+: text ++ [ascii '*'] := by
    rw [List.infix_concat_iff, not_or]
    refine ⟨?_, inside⟩
    rintro ⟨front, same⟩
    rw [show front ++ [ascii '*', ascii '/'] = (front ++ [ascii '*']) ++ [ascii '/'] by simp,
      List.append_singleton_inj] at same
    exact absurd same.2 (by decide)
  have found : (Scan.find [ascii '*', ascii '/'] 2).run
        (between before (ascii '/' :: ascii '*' :: (text ++ [ascii '*', ascii '/']) ++ rest))
      = (.ok (some (2 + text.length)), _) :=
    Scan.run_find [ascii '/', ascii '*'] text rest (by simp) rfl further
  unfold skipComment
  rw [Scan.run_bind_ok (Scan.run_peek 0), Scan.run_bind_ok (Scan.run_peek 1),
    if_neg (by simp; decide), if_pos (by simp), Scan.run_bind_ok found]
  dsimp only
  rw [Scan.run_bind_ok (Scan.run_advance _ _ rfl (by simp; omega)), Scan.run_pure]

/-- A block comment without an end is malformed. -/
theorem run_skipComment_open {text : Bytes} (nowhere : ¬ [ascii '*', ascii '/'] <:+: text) :
    settings.skipComment.run (between before (ascii '/' :: ascii '*' :: text))
      = (.error (settings.faultAt .unterminatedComment before (ascii '/' :: ascii '*' :: text)),
          between before (ascii '/' :: ascii '*' :: text)) := by
  have none : (Scan.find [ascii '*', ascii '/'] 2).run
        (between before (ascii '/' :: ascii '*' :: text)) = (.ok none, _) :=
    Scan.run_find_none (by simp) nowhere
  unfold skipComment
  rw [Scan.run_bind_ok (Scan.run_peek 0), Scan.run_bind_ok (Scan.run_peek 1),
    if_neg (by simp; decide), if_pos (by simp), Scan.run_bind_ok none]
  exact Scan.run_bind_error (settings.run_malformed .unterminatedComment before _)

/-- Where no comment begins, none is skipped. -/
theorem run_skipComment_none {input : Bytes} (line : ¬ [ascii '-', ascii '-'] <+: input)
    (block : ¬ [ascii '/', ascii '*'] <+: input) :
    settings.skipComment.run (between before input) = (.ok false, between before input) := by
  have absent : ∀ {first second : UInt8}, ¬ [first, second] <+: input →
      ¬ (input[0]? == some first && input[1]? == some second) = true := by
    intro first second
    rw [pair_prefix_iff, Bool.and_eq_true, beq_iff_eq, beq_iff_eq]
    exact id
  unfold skipComment
  rw [Scan.run_bind_ok (Scan.run_peek 0), Scan.run_bind_ok (Scan.run_peek 1),
    if_neg (absent line), if_neg (absent block), Scan.run_pure]

/-- **A comment begins here, or none does, or one that does not end.** -/
theorem skipComment_total (input : Bytes) :
    (∃ found source rest, input = source ++ rest ∧ ((found = true ∧ Comment source rest) ∨
        (found = false ∧ source = [] ∧ ¬ [ascii '-', ascii '-'] <+: rest
          ∧ ¬ [ascii '/', ascii '*'] <+: rest)))
      ∨ ∃ text, input = ascii '/' :: ascii '*' :: text ∧ ¬ [ascii '*', ascii '/'] <:+: text := by
  by_cases line : [ascii '-', ascii '-'] <+: input
  · obtain ⟨text, rfl⟩ := line
    left
    by_cases ends : ascii '\n' ∈ text
    · obtain ⟨text, rest, rfl, inside⟩ := List.eq_append_cons_of_mem ends
      exact ⟨true, _, rest, by simp, .inl ⟨rfl, .line inside⟩⟩
    · exact ⟨true, _, [], by simp, .inl ⟨rfl, .lastLine ends⟩⟩
  · by_cases block : [ascii '/', ascii '*'] <+: input
    · obtain ⟨text, rfl⟩ := block
      by_cases ends : [ascii '*', ascii '/'] <:+: text
      · obtain ⟨text, rest, rfl, inside⟩ := exists_first_text (by simp) ends
        have first : Comment (ascii '/' :: ascii '*' :: (text ++ [ascii '*', ascii '/'])) rest :=
          .block fun early => inside (early.trans (List.prefix_append text _).isInfix)
        exact .inl ⟨true, _, rest, by simp, .inl ⟨rfl, first⟩⟩
      · exact .inr ⟨text, rfl, ends⟩
    · exact .inl ⟨false, [], input, rfl, .inr ⟨rfl, rfl, line, block⟩⟩

/-- **Skipping a comment recognizes one**, or that there is none. -/
theorem recognizes_skipComment (before input : Bytes) :
    settings.skipComment.Recognizes before input fun found source rest =>
      (found = true ∧ Comment source rest) ∨
        (found = false ∧ source = [] ∧ ¬ [ascii '-', ascii '-'] <+: rest
          ∧ ¬ [ascii '/', ascii '*'] <+: rest) := by
  refine Scan.Recognizes.of_complete ?_ ((skipComment_total input).imp_right ?_)
  · rintro _ source rest rfl (⟨rfl, comment⟩ | ⟨rfl, rfl, line, block⟩)
    · cases comment with
      | line inside => exact settings.run_skipComment_line inside
      | lastLine inside => exact settings.run_skipComment_lastLine inside
      | block inside => exact settings.run_skipComment_block inside
    · rw [List.append_nil]
      exact settings.run_skipComment_none line block
  · rintro ⟨text, rfl, unclosed⟩
    exact ⟨_, _, settings.run_skipComment_open unclosed⟩

/-! ## All blanks -/

/-- Skipping takes the spaces and goes on with a comment, if one is there. -/
theorem run_skipBlanksWithin {spaces more : Bytes} (fuel : Nat)
    (bytes : ∀ byte ∈ spaces, IsSpace byte) (ends : Ends IsSpace more) :
    (settings.skipBlanksWithin (fuel + 1)).run (between before (spaces ++ more))
      = (settings.skipComment >>= fun found =>
          if found then settings.skipBlanksWithin fuel else pure ()).run
          (between (before ++ spaces) more) := by
  have span : (Scan.spanEnd isBlank 0).run (between before (spaces ++ more))
      = (.ok (0 + spaces.length), _) :=
    run_spanEnd_run isBlank_iff [] spaces more rfl rfl bytes ends
  rw [skipBlanksWithin, Scan.run_bind_ok span, Nat.zero_add]
  dsimp only
  split
  · rw [Scan.run_bind_ok (Scan.run_advance _ _ rfl rfl)]
  · have none : spaces = [] := by
      cases spaces with
      | nil => rfl
      | cons byte spaces => simp at *
    rw [none, List.nil_append, List.append_nil]

/-- **Skipping recognizes blanks**, if it may go on for long enough. -/
theorem recognizes_skipBlanksWithin {fuel : Nat} {input : Bytes} (h : input.length < fuel) :
    (settings.skipBlanksWithin fuel).Recognizes before input fun _ source rest =>
      Blanks source rest ∧ Settled rest := by
  induction fuel generalizing before input with
  | zero => exact absurd h (Nat.not_lt_zero _)
  | succ fuel ih =>
    obtain ⟨spaces, more, rfl, bytes, ends⟩ := exists_run isBlank_iff input
    rw [List.length_append] at h
    -- behind a comment the fuel still suffices, since a comment takes something
    have next : ∀ found source rest, more = source ++ rest →
        (found = true ∧ Comment source rest) ∨ (found = false ∧ source = []
          ∧ ¬ [ascii '-', ascii '-'] <+: rest ∧ ¬ [ascii '/', ascii '*'] <+: rest) →
        (if found then settings.skipBlanksWithin fuel else pure ()).Recognizes
          (before ++ spaces ++ source) rest fun _ source rest =>
            if found then Blanks source rest ∧ Settled rest else source = [] := by
      rintro (_ | _) source rest rfl outcome
      · exact (Scan.Recognizes.pure ()).congr fun _ _ _ _ => by simp
      · have shorter : 0 < source.length := by
          rcases outcome with ⟨-, comment⟩ | ⟨absurd, -⟩
          · obtain ⟨byte, tail, rfl, -⟩ := comment.exists_cons
            simp
          · simp at absurd
        exact (ih (by rw [List.length_append] at h; omega)).congr fun _ _ _ _ => by simp
    have tail := (settings.recognizes_skipComment (before ++ spaces) more).bind next
    intro value cursor
    rw [run_skipBlanksWithin settings fuel bytes ends, tail value cursor]
    constructor
    · rintro ⟨_, rest, rfl, ⟨found, front, back, rfl, outcome, others⟩, rfl⟩
      rcases outcome with ⟨rfl, comment⟩ | ⟨rfl, rfl, line, block⟩
      · refine ⟨spaces ++ (front ++ back), rest, by simp, ⟨?_, others.2⟩, by simp⟩
        exact .of_spaces bytes (.cons (.comment comment) others.1)
      · obtain rfl : back = [] := others
        refine ⟨spaces, rest, by simp, ⟨?_, ends, line, block⟩, by simp⟩
        have none : Blanks [] rest := .nil
        simpa using Blanks.of_spaces bytes none
    · rintro ⟨source, rest, split, ⟨blanks, settled⟩, rfl⟩
      -- the derivation may take its spaces one by one, but in sum it takes the same run
      obtain ⟨spaces', more', rfl, bytes', ends', further⟩ := blanks.exists_spaces settled
      rw [List.append_assoc] at split
      obtain ⟨rfl, rfl⟩ := run_unique isBlank_iff bytes ends bytes' ends' split
      refine ⟨more', rest, rfl, ?_, by rw [List.append_assoc]⟩
      rcases further with rfl | ⟨comment, others, rfl, derived, blanks⟩
      · exact ⟨false, [], [], rfl, .inr ⟨rfl, rfl, settled.line, settled.block⟩, rfl⟩
      · exact ⟨true, comment, others, rfl, .inl ⟨rfl, derived⟩, blanks, settled⟩

/-- **Skipping takes the blanks in front of a settled place.** -/
theorem recognizes_skipBlanks (before input : Bytes) :
    settings.skipBlanks.Recognizes before input fun _ source rest =>
      Blanks source rest ∧ Settled rest := by
  unfold skipBlanks
  refine .asked (Scan.run_left _) ?_
  rw [InMemory.left_between]
  exact settings.recognizes_skipBlanksWithin (Nat.lt_succ_self _)

end Settings

end TableDump
