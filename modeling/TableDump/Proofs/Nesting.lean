import Mathlib
import TableDump.Proofs.Boundaries
import TableDump.Proofs.Unambiguity

/-!
# The limit for nested groups

A reading counts the groups that are open, and refuses to open one more if there are as many as may
be. It should make no other difference how many may be: a dump that stays within the limit is read
as if there was a larger one, and any other dump is read so up to the first parenthesis that
oversteps it, and no further (`Reader.transcript_nesting`).

That a reading with a smaller limit follows the other one until then is a relation between what
scans come to (`Settings.Deeper`), closed under sequence. It says nothing of which parenthesis stops
the reading. That is a matter of the dump (`Grammar.Exceeds`), whose parts can be told in one way
only: two ways to places in it are one way, of which one goes on (`Grammar.Parts.along`). So a reading
comes to the place where it is stuck, and stops nowhere else (`Reader.cutOff_of_stuck`).

What counts is how many groups are open, so parentheses inside of quoted texts, names and comments do
not, and what has been closed does not.
-/

namespace TableDump

open Grammar
open InMemory (between)

/-! ## Reading goes forward -/

namespace InMemory

variable {α : Type}

theorem forward_answer (query : Query) {memory : InMemory}
    (inside : memory.position ≤ memory.bytes.size) :
    memory.position ≤ (memory.answer query).2.position
      ∧ (memory.answer query).2.position ≤ memory.bytes.size := by
  cases query with
  | advance count =>
    unfold answer
    dsimp only
    split
    case isTrue enough =>
      unfold remaining at enough
      refine ⟨Nat.le_add_right _ _, ?_⟩
      show memory.position + count ≤ memory.bytes.size
      omega
    case isFalse => exact ⟨le_rfl, inside⟩
  | slice start stop =>
    unfold answer
    dsimp only
    split <;> exact ⟨le_rfl, inside⟩
  | skipRest => exact ⟨inside, le_rfl⟩
  | peek offset | find needle start | findEither a b start | preview count =>
    exact ⟨le_rfl, inside⟩

/-- **No reading goes back**, or out of the input. -/
theorem forward_run (scan : Scan α) {memory : InMemory}
    (inside : memory.position ≤ memory.bytes.size) :
    memory.position ≤ (scan.run memory).2.position
      ∧ (scan.run memory).2.position ≤ memory.bytes.size := by
  induction scan generalizing memory with
  | done value => exact ⟨le_rfl, inside⟩
  | fail fault => exact ⟨le_rfl, inside⟩
  | locate next ih =>
    rw [Scan.run]
    exact ih _ _ inside
  | ask query next ih =>
    have forward := forward_answer query inside
    have kept := memory.bytes_answer query
    rw [Scan.run]
    revert forward kept
    rw [show Cursor.answer query memory = memory.answer query from rfl]
    rcases memory.answer query with ⟨fault | answer, memory'⟩
    · exact fun forward _ => forward
    · intro forward kept
      dsimp only at forward kept ⊢
      rw [← kept] at forward ⊢
      obtain ⟨further, bound⟩ := ih answer forward.2
      exact ⟨forward.1.trans further, bound⟩

theorem inside_between (before rest : Bytes) :
    (between before rest).position ≤ (between before rest).bytes.size := by
  simp [between]

/-- A reading from a place comes to a place. -/
theorem exists_between (scan : Scan α) (before rest : Bytes) :
    ∃ before' rest', (scan.run (between before rest)).2 = between before' rest'
      ∧ before.length ≤ before'.length := by
  obtain ⟨further, bound⟩ := forward_run scan (inside_between before rest)
  rw [← bytes_run scan] at bound
  refine ⟨_, _, eq_between bound, ?_⟩
  rw [List.length_take, Array.length_toList]
  exact le_min further (further.trans bound)

end InMemory

/-! ## Two limits -/

namespace Settings

variable {α β : Type} {settings : Settings} {limit : Nat}

/-- **The same choices with another limit** for nested groups. -/
def allowing (settings : Settings) (limit : Nat) : Settings := { settings with maxDepth := limit }

@[simp] theorem allowing_maxDepth : (settings.allowing limit).maxDepth = limit := rfl

@[simp] theorem allowing_malformed (cause : Malformation) :
    ((settings.allowing limit).malformed cause : Scan α) = settings.malformed cause := rfl

@[simp] theorem allowing_skipBlanks : (settings.allowing limit).skipBlanks = settings.skipBlanks := by
  have within : ∀ fuel,
      (settings.allowing limit).skipBlanksWithin fuel = settings.skipBlanksWithin fuel := by
    intro fuel
    induction fuel with
    | zero => rfl
    | succ fuel ih =>
      rw [skipBlanksWithin, skipBlanksWithin, ih]
      rfl
  unfold skipBlanks
  simp only [within]

@[simp] theorem allowing_scanSimple (byte : UInt8) :
    (settings.allowing limit).scanSimple byte = settings.scanSimple byte := by
  have quoted : ∀ quote fuel start before, (settings.allowing limit).quotedFrom quote fuel start before
      = settings.quotedFrom quote fuel start before := by
    intro quote fuel
    induction fuel with
    | zero => exact fun start before => rfl
    | succ fuel ih =>
      intro start before
      rw [quotedFrom, quotedFrom]
      simp only [ih]
      rfl
  have text : (settings.allowing limit).scanText byte = settings.scanText byte := by
    unfold scanText
    simp only [quoted]
  have number : (settings.allowing limit).scanNumber = settings.scanNumber := by
    have numeral : ∀ value? stop,
        (settings.allowing limit).numeral value? stop = settings.numeral value? stop :=
      fun _ _ => rfl
    unfold scanNumber
    simp only [numeral]
  have name : (settings.allowing limit).scanName = settings.scanName := by
    unfold scanName
    simp only [allowing_malformed]
  have unexpected : ((settings.allowing limit).unexpected byte : Scan Token)
      = settings.unexpected byte := rfl
  unfold scanSimple
  rw [text, number, name, unexpected]

/-- **What a reading comes to under a larger limit**: the same, or it was stopped by a parenthesis
too many, and comes further. -/
inductive Deeper (settings : Settings) (limit : Nat) :
    Except Fault α × InMemory → Except Fault α × InMemory → Prop where
  | same (ran : Except Fault α × InMemory) : Deeper settings limit ran ran
  | cut {before tail before' rest' : Bytes} {outcome : Except Fault α}
      (further : settings.maxDepth < limit → before.length < before'.length) :
      Deeper settings limit
        (.error (settings.faultAt (.nestingTooDeep settings.maxDepth) before (ascii '(' :: tail)),
          between before (ascii '(' :: tail))
        (outcome, between before' rest')

namespace Deeper

variable {before rest : Bytes}

/-- **First the one reading, then the other.** -/
theorem bind {first first' : Scan α} {next next' : α → Scan β}
    (h : Deeper settings limit (first.run (between before rest)) (first'.run (between before rest)))
    (hnext : ∀ value before rest, Deeper settings limit ((next value).run (between before rest))
      ((next' value).run (between before rest))) :
    Deeper settings limit ((first >>= next).run (between before rest))
      ((first' >>= next').run (between before rest)) := by
  obtain ⟨before', rest', stopped, -⟩ := InMemory.exists_between first before rest
  rw [Scan.run_bind, Scan.run_bind]
  generalize first.run (between before rest) = ran at h stopped
  generalize first'.run (between before rest) = ran' at h
  cases h with
  | same =>
    obtain ⟨fault | value, cursor⟩ := ran
    · exact .same _
    · obtain rfl : cursor = _ := stopped
      exact hnext value before' rest'
  | @cut _ tail before' rest' outcome further =>
    cases outcome with
    | error fault => exact .cut further
    | ok value =>
      obtain ⟨_, _, there, onward⟩ := InMemory.exists_between (next' value) before' rest'
      dsimp only
      rw [← Prod.mk.eta (p := (next' value).run (between before' rest')), there]
      exact .cut fun larger => (further larger).trans_le onward

/-- Behind a reading that does not depend on the limit. -/
theorem behind (first : Scan α) {next next' : α → Scan β}
    (hnext : ∀ value before rest, Deeper settings limit ((next value).run (between before rest))
      ((next' value).run (between before rest))) :
    Deeper settings limit ((first >>= next).run (between before rest))
      ((first >>= next').run (between before rest)) :=
  bind (.same _) hnext

/-- What succeeds comes to the same. -/
theorem eq_of_ok {value : α} {cursor : InMemory} {ran : Except Fault α × InMemory}
    (h : Deeper settings limit (.ok value, cursor) ran) : ran = (.ok value, cursor) := by
  generalize stopped : ((.ok value, cursor) : Except Fault α × InMemory) = ran' at h
  cases h with
  | same => rfl
  | cut => cases stopped

/-- What fails comes to the same, or further. -/
theorem eq_or_lt {fault : Fault} {cursor : InMemory} {ran : Except Fault α × InMemory}
    (h : Deeper settings limit (.error fault, cursor) ran) :
    ran = (.error fault, cursor)
      ∨ (settings.maxDepth < limit → cursor.position < ran.2.position) := by
  generalize stopped : ((.error fault, cursor) : Except Fault α × InMemory) = ran' at h
  cases h with
  | same => exact .inl rfl
  | cut further =>
    obtain ⟨-, rfl⟩ := Prod.mk.inj stopped
    exact .inr further

end Deeper

/-- **A group is read as before**, or it is the one that is too many. -/
theorem deeper_scanGroup {depth : Nat} (within : depth ≤ settings.maxDepth)
    (le : settings.maxDepth ≤ limit) {inside inside' : Scan (List Token)}
    (h : depth < settings.maxDepth → ∀ before rest, Deeper settings limit
      (inside.run (between before rest)) (inside'.run (between before rest)))
    (before tail : Bytes) :
    Deeper settings limit ((settings.scanGroup depth inside).run (between before (ascii '(' :: tail)))
      (((settings.allowing limit).scanGroup depth inside').run
        (between before (ascii '(' :: tail))) := by
  have opened : (Scan.advance 1).run (between before (ascii '(' :: tail))
      = (.ok (), between (before ++ [ascii '(']) tail) :=
    Scan.run_advance [ascii '('] tail rfl rfl
  by_cases full : settings.maxDepth ≤ depth
  · have refused : (settings.scanGroup depth inside).run (between before (ascii '(' :: tail))
        = (.error (settings.faultAt (.nestingTooDeep settings.maxDepth) before (ascii '(' :: tail)),
          between before (ascii '(' :: tail)) := by
      rw [scanGroup, if_pos full, run_malformed]
    obtain ⟨before', rest', there, -⟩ := InMemory.exists_between
      ((settings.allowing limit).scanGroup depth inside') before (ascii '(' :: tail)
    rw [refused, ← Prod.mk.eta (p := ((settings.allowing limit).scanGroup depth inside').run _),
      there]
    refine .cut fun larger => ?_
    -- under the larger limit the parenthesis is read over
    have room : ¬ (settings.allowing limit).maxDepth ≤ depth :=
      Nat.not_le.2 (within.trans_lt larger)
    rw [scanGroup, if_neg room, Scan.run_bind_ok opened] at there
    obtain ⟨before'', rest'', there', onward⟩ :=
      InMemory.exists_between _ (before ++ [ascii '(']) tail
    obtain ⟨rfl, rfl⟩ := InMemory.between_inj (there'.symm.trans there)
    rw [List.length_append] at onward
    exact onward
  · have room : ¬ (settings.allowing limit).maxDepth ≤ depth :=
      fun past => full (le.trans past)
    rw [scanGroup, scanGroup, if_neg full, if_neg room, Scan.run_bind_ok opened,
      Scan.run_bind_ok opened, allowing_skipBlanks]
    refine .behind _ fun _ before rest => ?_
    exact .bind (h (Nat.lt_of_not_le full) before rest) fun tokens before rest => .same _

/-- **So are any number of tokens.** -/
theorem deeper_tokensWithin {depth : Nat} (within : depth ≤ settings.maxDepth)
    (le : settings.maxDepth ≤ limit) (fuel : Nat) (found : List Token) (before rest : Bytes) :
    Deeper settings limit ((settings.tokensWithin fuel depth found).run (between before rest))
      (((settings.allowing limit).tokensWithin fuel depth found).run (between before rest)) := by
  induction fuel generalizing depth found before rest with
  | zero => exact .same _
  | succ fuel ih =>
    unfold tokensWithin
    rw [Scan.run_bind_ok (Scan.run_peek 0), Scan.run_bind_ok (Scan.run_peek 0)]
    rcases rest with _ | ⟨byte, tail⟩
    · exact .same _
    · dsimp only [List.getElem?_cons_zero]
      split
      case isTrue => exact .same _
      case isFalse =>
        rw [allowing_skipBlanks, allowing_scanSimple]
        have others : ∀ token before rest, Deeper settings limit
            ((settings.skipBlanks >>= fun _ =>
              settings.tokensWithin fuel depth (token :: found)).run (between before rest))
            ((settings.skipBlanks >>= fun _ =>
              (settings.allowing limit).tokensWithin fuel depth (token :: found)).run
                (between before rest)) :=
          fun token before rest => .behind _ fun _ before rest => ih within _ before rest
        split
        case isTrue opens =>
          obtain rfl : byte = ascii '(' := by simpa using opens
          refine .bind (deeper_scanGroup within le (fun room before rest => ?_) before tail) others
          exact ih room [] before rest
        case isFalse => exact .behind _ others

/-- **And a statement.** -/
theorem deeper_scanStatement (le : settings.maxDepth ≤ limit) (before rest : Bytes) :
    Deeper settings limit (settings.scanStatement.run (between before rest))
      ((settings.allowing limit).scanStatement.run (between before rest)) := by
  unfold scanStatement
  rw [allowing_skipBlanks]
  refine .behind _ fun _ before rest => .behind _ fun ended before rest => ?_
  split
  · exact .same _
  · refine .behind _ fun left before rest => ?_
    exact .bind (deeper_tokensWithin (Nat.zero_le _) le _ [] before rest)
      fun tokens before rest => .same _

end Settings

/-! ## Ways to places -/

namespace Grammar

variable {most limit maxDepth depth middle after after' : Nat}
  {source source' part rest rest' : Bytes}

/-- A part is one also where more groups may be open. -/
theorem Part.mono (h : Part most depth after part rest) (le : most ≤ limit) :
    Part limit depth after part rest := by
  cases h with
  | blank blank => exact .blank blank
  | lexeme lexeme => exact .lexeme lexeme
  | opens room => exact .opens (room.trans_le le)
  | closes => exact .closes

theorem Parts.mono (h : Parts most depth after source rest) (le : most ≤ limit) :
    Parts limit depth after source rest := by
  induction h with
  | nil => exact .nil
  | cons first others ih => exact .cons (first.mono le) ih

/-- No part is empty. -/
theorem Part.ne_nil (h : Part maxDepth depth after part rest) : part ≠ [] := by
  obtain ⟨byte, tail, rfl, -⟩ := h.exists_beginning
  exact List.cons_ne_nil byte tail

/-- **Of two ways through some bytes one goes on where the other ends.** One of them may have a
larger limit. -/
theorem Parts.along (h : Parts most depth after source rest)
    (h' : Parts limit depth after' source' rest') (le : most ≤ limit)
    (same : source ++ rest = source' ++ rest') :
    (∃ more, source' = source ++ more ∧ Parts limit after after' more rest')
      ∨ ∃ more, source = source' ++ more ∧ Parts most after' after more rest := by
  induction h generalizing source' with
  | @nil depth rest => exact .inl ⟨source', rfl, h'⟩
  | @cons depth middle after part source rest first others ih =>
    cases h' with
    | nil => exact .inr ⟨part ++ source, rfl, .cons first others⟩
    | @cons _ _ _ part' source' _ first' others' =>
      rw [List.append_assoc, List.append_assoc] at same
      obtain ⟨rfl, rfl, behind⟩ := (first.mono le).unique first' same
      refine (ih others' behind).imp ?_ ?_
      · rintro ⟨more, rfl, further⟩
        exact ⟨more, (List.append_assoc _ _ _).symm, further⟩
      · rintro ⟨more, rfl, further⟩
        exact ⟨more, (List.append_assoc _ _ _).symm, further⟩

/-- Where a way goes on, a part begins. -/
theorem Parts.exists_first (h : Parts maxDepth depth after source rest) (ne_nil : source ≠ []) :
    ∃ part more middle, source = part ++ more ∧ Part maxDepth depth middle part (more ++ rest) := by
  cases h with
  | nil => exact absurd rfl ne_nil
  | cons first others => exact ⟨_, _, _, rfl, first⟩

/-- Where nothing is passed, nothing changes. -/
theorem Parts.eq_of_nil (h : Parts maxDepth depth after [] rest) : depth = after := by
  generalize none : ([] : Bytes) = source at h
  cases h with
  | nil => rfl
  | cons first => exact absurd (List.append_eq_nil_iff.1 none.symm).1 first.ne_nil

/-- **At a place one number of groups is open.** -/
theorem Underway.depth_unique (h : Underway maxDepth depth source rest)
    (h' : Underway maxDepth after source rest) : depth = after := by
  rcases Parts.along h h' le_rfl rfl with ⟨more, same, further⟩ | ⟨more, same, further⟩
  · obtain rfl : more = [] := List.append_right_eq_self.1 same.symm
    exact further.eq_of_nil
  · obtain rfl : more = [] := List.append_right_eq_self.1 same.symm
    exact further.eq_of_nil.symm

/-- **No way leads past a place where reading is stuck.** -/
theorem Underway.prefix_of_stuck {cause : Malformation}
    (h : Underway most depth source rest) (h' : Underway most after source' rest')
    (stuck : Stuck most after cause rest') (same : source ++ rest = source' ++ rest') :
    source <+: source' := by
  rcases Parts.along h h' le_rfl same with ⟨more, rfl, -⟩ | ⟨more, rfl, further⟩
  · exact List.prefix_append source more
  · by_cases none : more = []
    · rw [none, List.append_nil]
    · obtain ⟨part, others, middle, rfl, first⟩ := further.exists_first none
      rw [List.append_assoc, List.append_assoc] at same
      obtain rfl := List.append_cancel_left same
      exact absurd first stuck.not_part

/-! ## Parentheses that are too many -/

/-- **A parenthesis that opens one group too many**, if `most` may be open, in a reading that allows
for `limit`. -/
structure Exceeds (most limit : Nat) (bytes : Bytes) (place : Nat) : Prop where
  opens : bytes[place]? = some (ascii '(')
  underway : Underway limit most (bytes.take place) (bytes.drop place)

/-- What is behind the place begins with the parenthesis. -/
theorem Exceeds.exists_drop {bytes : Bytes} {place : Nat} (h : Exceeds most limit bytes place) :
    ∃ tail, bytes.drop place = ascii '(' :: tail := by
  obtain ⟨inside, opens⟩ := List.getElem?_eq_some_iff.1 h.opens
  exact ⟨_, (List.drop_eq_getElem_cons inside).trans (by rw [opens])⟩

/-- **A reading is stuck for a parenthesis too many** only where one stands. -/
theorem Stuck.of_nesting (h : Stuck maxDepth depth (.nestingTooDeep most) rest) :
    most = maxDepth ∧ depth = maxDepth ∧ ∃ tail, rest = ascii '(' :: tail := by
  cases h with
  | token settled unreadable => cases unreadable
  | nesting full => exact ⟨rfl, full, _, rfl⟩

/-- So that is in front of the end. -/
theorem Stuck.lt_length {bytes : Bytes} {place : Nat}
    (h : Stuck maxDepth depth (.nestingTooDeep most) (bytes.drop place)) :
    place < bytes.length := by
  obtain ⟨-, -, tail, split⟩ := h.of_nesting
  by_contra past
  rw [List.drop_eq_nil_of_le (Nat.le_of_not_lt past)] at split
  cases split

/-- A parenthesis too many cannot be read over. -/
theorem Exceeds.stuck {bytes : Bytes} {place : Nat} (h : Exceeds most limit bytes place) :
    Stuck most most (.nestingTooDeep most) (bytes.drop place) := by
  obtain ⟨tail, split⟩ := h.exists_drop
  rw [split]
  exact .nesting rfl

/-- **A way with no parenthesis too many** stays within the smaller limit. -/
theorem Parts.within (h : Parts limit depth after source rest) (le : depth ≤ most)
    (none : ∀ before tail, source = before ++ ascii '(' :: tail →
      ¬ Parts limit depth most before (ascii '(' :: (tail ++ rest))) :
    Parts most depth after source rest := by
  induction h with
  | nil => exact .nil
  | @cons depth middle after part source rest first others ih =>
    have first' : Part most depth middle part (source ++ rest) := by
      cases first with
      | blank blank => exact .blank blank
      | lexeme lexeme => exact .lexeme lexeme
      | opens room =>
        refine .opens (lt_of_le_of_ne le ?_)
        rintro rfl
        exact none [] source rfl .nil
      | closes => exact .closes
    refine .cons first' (ih (first'.depth_le le) fun before tail split way => ?_)
    subst split
    refine none (part ++ before) tail (List.append_assoc _ _ _).symm (.cons ?_ way)
    rwa [List.append_assoc] at first

/-- **In front of the first parenthesis that is too many**, the way stays within the limit. -/
theorem Exceeds.within {bytes : Bytes} {place : Nat}
    (least : IsLeast {place | Exceeds most limit bytes place} place) :
    Underway most most (bytes.take place) (bytes.drop place) := by
  obtain ⟨exceeds, first⟩ := least
  refine Parts.within exceeds.underway (Nat.zero_le most) fun before tail split way => ?_
  have whole : bytes = before ++ ascii '(' :: (tail ++ bytes.drop place) := by
    rw [← List.cons_append, ← List.append_assoc, ← split, List.take_append_drop]
  have earlier : Exceeds most limit bytes before.length := by
    refine ⟨?_, ?_⟩
    · rw [whole, List.getElem?_append_right le_rfl, Nat.sub_self]
      rfl
    · rw [whole, List.take_left, List.drop_left]
      exact way
  have shorter : before.length < place := by
    have length_eq := congrArg List.length split
    rw [List.length_take, List.length_append, List.length_cons] at length_eq
    omega
  exact absurd (first earlier) (Nat.not_le.2 shorter)

/-! ## What does not count -/

/-- **Inside of a blank or a token that is no group** no parenthesis is too many, since none opens a
group there. -/
theorem Exceeds.not_inside {bytes before : Bytes} {place : Nat}
    (split : before ++ (part ++ rest) = bytes) (underway : Underway limit depth before (part ++ rest))
    (h : Blank part rest ∨ ∃ token, Lexeme token part rest) (from_start : before.length ≤ place)
    (to_end : place < before.length + part.length) : ¬ Exceeds most limit bytes place := by
  intro exceeds
  have here : Part limit depth depth part rest ∧ part.head? ≠ some (ascii '(') := by
    rcases h with blank | ⟨token, lexeme⟩
    · obtain ⟨byte, tail, rfl, -, other, -⟩ := blank.exists_cons depth
      exact ⟨.blank blank, fun head => other (Option.some.inj head)⟩
    · obtain ⟨byte, tail, rfl, -, other⟩ := lexeme.exists_leading
      exact ⟨.lexeme lexeme, fun head => other (Option.some.inj head)⟩
  obtain ⟨first, head⟩ := here
  have length_eq : (bytes.take place).length = place := by
    rw [List.length_take, ← split]
    simp only [List.length_append]
    omega
  have same := split.trans (List.take_append_drop place bytes).symm
  -- the way to the place goes on behind `before`, or ends there
  obtain ⟨more, take_eq, way⟩ : ∃ more, bytes.take place = before ++ more
      ∧ Parts limit depth most more (bytes.drop place) := by
    rcases Parts.along underway exceeds.underway le_rfl same with onward | ⟨more, before_eq, way⟩
    · exact onward
    · obtain rfl : more = [] := by
        rw [← List.length_eq_zero_iff]
        have := congrArg List.length before_eq
        rw [List.length_append, length_eq] at this
        omega
      obtain rfl := way.eq_of_nil
      exact ⟨[], by rw [before_eq, List.append_nil, List.append_nil], .nil⟩
  rw [take_eq, List.append_assoc] at same
  have behind := List.append_cancel_left same
  by_cases none : more = []
  · obtain ⟨tail, drop_eq⟩ := exceeds.exists_drop
    rw [none, List.nil_append, drop_eq] at behind
    rw [← List.head?_append_of_ne_nil part first.ne_nil, behind] at head
    exact head rfl
  · obtain ⟨part', others, middle, rfl, first'⟩ := way.exists_first none
    rw [List.append_assoc] at behind
    obtain ⟨-, rfl, -⟩ := first.unique first' behind
    rw [take_eq, List.length_append, List.length_append] at length_eq
    omega

/-- On behind some blanks. -/
theorem Parts.append_blanks {blanks more : Bytes}
    (h : Parts maxDepth depth middle source (blanks ++ (more ++ rest)))
    (between : Blanks blanks (more ++ rest)) (others : Parts maxDepth middle after more rest) :
    Parts maxDepth depth after (source ++ (blanks ++ more)) rest := by
  rw [← List.append_assoc blanks] at h
  exact h.append (between.parts.append others)

/-- Through a group and out of it. -/
theorem Parts.group {blanks : Bytes} (room : depth < maxDepth)
    (leading : Blanks blanks (source ++ ascii ')' :: rest))
    (inside : Parts maxDepth (depth + 1) (depth + 1) source (ascii ')' :: rest)) :
    Parts maxDepth depth depth (ascii '(' :: (blanks ++ (source ++ [ascii ')']))) rest := by
  have opens : Parts maxDepth depth (depth + 1) [ascii '(']
      (blanks ++ (source ++ [ascii ')'] ++ rest)) :=
    Part.parts (.opens room)
  have closes : Parts maxDepth (depth + 1) depth [ascii ')'] rest := Part.closes.parts
  rw [List.append_cons source] at leading
  exact opens.append_blanks leading (inside.append closes)

mutual

/-- **A token leaves as many groups open as it found.** -/
theorem Item.parts {maxDepth : Nat} :
    ∀ {depth : Nat} {token : Token} {source rest : Bytes},
      Item maxDepth depth token source rest → Parts maxDepth depth depth source rest
  | _, _, _, _, .lexeme lexeme => Part.parts (.lexeme lexeme)
  | _, _, _, _, .group room leading inside => .group room leading (Items.parts inside)

/-- So do any number of them. -/
theorem Items.parts {maxDepth : Nat} :
    ∀ {depth : Nat} {tokens : List Token} {source rest : Bytes},
      Items maxDepth depth tokens source rest → Parts maxDepth depth depth source rest
  | _, _, _, _, .nil => .nil
  | _, _, _, _, .cons first between others =>
    (Item.parts first).append_blanks between (Items.parts others)

end

/-- **Behind a statement no group is open.** -/
theorem IsStatement.parts {statement : Statement} (h : IsStatement maxDepth statement source rest) :
    Parts maxDepth 0 0 source rest := by
  cases h with
  | closed items =>
    have closes : Parts maxDepth 0 0 [ascii ';'] rest := Part.closes.parts
    exact items.parts.append closes
  | last ne_nil items => exact items.parts

end Grammar

/-! ## Where a reading stops -/

namespace Settings

variable {settings : Settings} {bytes before rest : Bytes} {place limit left : Nat} {fault : Fault}

/-- A place that is reached is also reached under a larger limit. -/
theorem Reached.allowing (here : settings.Reached bytes 0 left before rest)
    (le : settings.maxDepth ≤ limit) : (settings.allowing limit).Reached bytes 0 left before rest :=
  ⟨here.split, Parts.mono here.underway le, here.left⟩

/-- No place that is reached is behind one where reading is stuck. -/
theorem Reached.le_of_stuck {depth : Nat} {cause : Malformation}
    (here : settings.Reached bytes 0 left before rest)
    (underway : Underway settings.maxDepth depth (bytes.take place) (bytes.drop place))
    (stuck : Stuck settings.maxDepth depth cause (bytes.drop place)) : before.length ≤ place := by
  have isPrefix := here.underway.prefix_of_stuck underway stuck
    (here.split.trans (List.take_append_drop place bytes).symm)
  exact isPrefix.length_le.trans (List.length_take_le place bytes)

/-- So the input has not ended there. -/
theorem Reached.not_ended {cursor : InMemory} (here : settings.Reached bytes 0 left before rest)
    (underway : Underway settings.maxDepth settings.maxDepth (bytes.take place) (bytes.drop place))
    (stuck : Stuck settings.maxDepth settings.maxDepth (.nestingTooDeep settings.maxDepth)
      (bytes.drop place)) :
    settings.scanStatement.run (between before rest) ≠ (.ok none, cursor) := by
  intro ran
  have comes := here.comes_scanStatement
  rw [ran] at comes
  obtain ⟨source, _, rfl, ⟨-, rfl, -⟩ | ⟨_, _, _, absurd, -⟩, rfl⟩ :=
    (settings.recognizes_scanStatement before rest none cursor).1 ran
  · generalize ended : between (before ++ source) [] = cursor at comes
    cases comes with
    | on there =>
      obtain ⟨rfl, rfl⟩ := InMemory.between_inj ended
      have whole := congrArg List.length there.split
      rw [List.append_nil] at whole
      have past := whole.symm.le.trans (there.le_of_stuck underway stuck)
      exact absurd past (Nat.not_le.2 stuck.lt_length)
  · cases absurd

/-- **A fault that names a parenthesis too many** points at one. -/
theorem Points.exceeds {most : Nat} {spot : Place}
    (h : settings.Points bytes (.malformed (.nestingTooDeep most) spot) place) :
    most = settings.maxDepth
      ∧ ∀ limit, settings.maxDepth ≤ limit → Exceeds settings.maxDepth limit bytes place := by
  obtain ⟨-, cause, depth, same, underway, stuck, -⟩ := h
  obtain ⟨rfl, -⟩ := Fault.malformed.inj same
  obtain ⟨rfl, rfl, tail, split⟩ := stuck.of_nesting
  refine ⟨rfl, fun limit le => ⟨?_, Parts.mono underway le⟩⟩
  rw [← List.head?_drop, split]
  rfl

/-- **A fault points at the place where reading is stuck**, for the cause that it has there. -/
theorem Points.eq_of_stuck {place' depth : Nat} {cause : Malformation}
    (h : settings.Points bytes fault place') (inside : place ≤ bytes.length)
    (underway : Underway settings.maxDepth depth (bytes.take place) (bytes.drop place))
    (stuck : Stuck settings.maxDepth depth cause (bytes.drop place))
    (other : ∀ found, cause ≠ .unexpectedCharacter found) :
    place' = place ∧ fault = .malformed cause
      { offset := place, excerpt := Utf8.decode ((bytes.drop place).take settings.excerptLength) } := by
  obtain ⟨inside', cause', depth', rfl, underway', stuck', -⟩ := h
  obtain ⟨same, alike⟩ := underway.stuck_unique stuck underway' stuck'
    ((List.take_append_drop place bytes).trans (List.take_append_drop place' bytes).symm)
  obtain rfl : place = place' := by
    have length_eq := congrArg List.length same
    rwa [List.length_take, List.length_take, min_eq_left inside, min_eq_left inside'] at length_eq
  cases alike with
  | same => exact ⟨rfl, rfl⟩
  | unexpectedCharacter found => exact absurd rfl (other found)

end Settings

namespace Reader

/-- **A reading is cut off at a place where another one goes on.** Both hand out the same statements
at the same places, none of them behind that place. Then the one fails there, and is finished, and
the other reads over it, if its limit is larger. -/
def CutOff {κ : Type} [Cursor κ] (short long : Reader κ) (fault : Fault) (place : Nat) : Prop :=
  ∃ passed short' long', Passes short passed short' ∧ Passes long passed long'
    ∧ (∀ entry ∈ passed, entry.2 ≤ place) ∧ long'.position ≤ place
    ∧ (∀ more, short'.transcript (more + 1)
      = (.error fault, place) :: List.replicate more (.ok none, place))
    ∧ (short.settings.maxDepth < long.settings.maxDepth → place < long'.next.2.position)

/-- Where a call leaves the reader. -/
theorem position_next {κ : Type} [Cursor κ] (cursor : κ) (settings : Settings) (counted : Nat) :
    (next { cursor, settings, statements := counted }).2.position
      = Cursor.position (settings.scanStatement.run cursor).2 := by
  rw [next]
  dsimp only [Bool.false_eq_true, if_false]
  rcases settings.scanStatement.run cursor with ⟨_ | _ | _, _⟩ <;> rfl

section InMemory

variable {settings : Settings} {bytes before rest : Bytes} {place limit left counted : Nat}

/-- **Without a parenthesis too many**, readings with both limits are the same. -/
theorem transcript_allowing (le : settings.maxDepth ≤ limit)
    (none : ∀ place, ¬ Exceeds settings.maxDepth limit bytes place)
    (here : settings.Reached bytes 0 left before rest) (count : Nat) :
    transcript count { cursor := between before rest, settings, statements := counted }
      = transcript count { cursor := between before rest, settings := settings.allowing limit,
                           statements := counted } := by
  induction count generalizing before rest counted with
  | zero => rfl
  | succ count ih =>
    have comes := here.comes_scanStatement
    have deeper := settings.deeper_scanStatement le before rest
    have finished : ∀ cursor : InMemory,
        transcript count { cursor, settings, statements := counted, finished := true }
          = transcript count { cursor, settings := settings.allowing limit, statements := counted,
                               finished := true } := by
      intro cursor
      rw [transcript_of_finished rfl, transcript_of_finished rfl]
      rfl
    rw [transcript, transcript, next, next]
    dsimp only [Bool.false_eq_true, if_false]
    generalize settings.scanStatement.run (between before rest) = ran at comes deeper ⊢
    generalize (settings.allowing limit).scanStatement.run (between before rest) = ran'
      at deeper ⊢
    cases deeper with
    | cut =>
      obtain ⟨-, exceeds⟩ := comes.points.exceeds
      exact absurd (exceeds limit le) (none _)
    | same =>
      rcases ran with ⟨fault | _ | statement, cursor⟩
      · exact congrArg (_ :: ·) (finished cursor)
      · exact congrArg (_ :: ·) (finished cursor)
      · cases comes with
        | on there => exact congrArg (_ :: ·) (ih there)

/-- **A fault that the other reading gets over** cuts the first one off. -/
theorem CutOff.of_error {κ : Type} [Cursor κ] {settings settings' : Settings} {cursor cursor' : κ}
    {fault : Fault} (ran : settings.scanStatement.run cursor = (.error fault, cursor'))
    (forward : Cursor.position cursor ≤ Cursor.position cursor')
    (further : settings.maxDepth < settings'.maxDepth →
      Cursor.position cursor' < Cursor.position (settings'.scanStatement.run cursor).2) :
    CutOff { cursor, settings, statements := counted }
      { cursor, settings := settings', statements := counted } fault (Cursor.position cursor') := by
  refine ⟨[], _, _, .nothing, .nothing, by simp, forward, fun more => ?_, fun larger => ?_⟩
  · rw [transcript, next, ran]
    exact congrArg (_ :: ·) (transcript_of_finished rfl more)
  · rw [position_next]
    exact further larger

/-- **A statement that both hand out** comes before the cut. -/
theorem CutOff.behind {κ : Type} [Cursor κ] {settings settings' : Settings} {cursor cursor' : κ}
    {statement : Statement} {fault : Fault}
    (ran : settings.scanStatement.run cursor = (.ok (some statement), cursor'))
    (ran' : settings'.scanStatement.run cursor = (.ok (some statement), cursor'))
    (early : Cursor.position cursor' ≤ place)
    (h : CutOff { cursor := cursor', settings, statements := counted + 1 }
      { cursor := cursor', settings := settings', statements := counted + 1 } fault place) :
    CutOff { cursor, settings, statements := counted }
      { cursor, settings := settings', statements := counted } fault place := by
  have first : next { cursor, settings, statements := counted }
      = (.ok (some statement), { cursor := cursor', settings, statements := counted + 1 }) := by
    rw [next, ran]
    rfl
  have first' : next { cursor, settings := settings', statements := counted }
      = (.ok (some statement),
        { cursor := cursor', settings := settings', statements := counted + 1 }) := by
    rw [next, ran']
    rfl
  obtain ⟨passed, short, long, passes, passes', bound, position_le, fails, goesOn⟩ := h
  refine ⟨_ :: passed, short, long, .next first rfl passes, .next first' rfl passes', ?_,
    position_le, fails, goesOn⟩
  rintro entry (_ | ⟨_, mem⟩)
  · exact early
  · exact bound entry mem

/-- **A reading comes to the place where it is stuck** for a parenthesis too many. -/
theorem cutOff_of_stuck (le : settings.maxDepth ≤ limit)
    (underway : Underway settings.maxDepth settings.maxDepth (bytes.take place) (bytes.drop place))
    (stuck : Stuck settings.maxDepth settings.maxDepth (.nestingTooDeep settings.maxDepth)
      (bytes.drop place))
    (here : settings.Reached bytes 0 left before rest) {statements : List Statement}
    {ending : Except Fault Unit}
    (course : Course { cursor := between before rest, settings, statements := counted } statements
      ending) :
    CutOff { cursor := between before rest, settings, statements := counted }
      { cursor := between before rest, settings := settings.allowing limit, statements := counted }
      (.malformed (.nestingTooDeep settings.maxDepth)
        { offset := place,
          excerpt := Utf8.decode ((bytes.drop place).take settings.excerptLength) })
      place := by
  have place_lt : place < bytes.length := stuck.lt_length
  induction statements generalizing before rest counted with
  | nil =>
    obtain ⟨outcome, cursor, ran, what⟩ := course.exists_run
    have comes := here.comes_scanStatement
    have deeper := settings.deeper_scanStatement le before rest
    rw [ran] at comes deeper
    rcases outcome with fault | _ | statement
    · have forward : before.length ≤ place := here.le_of_stuck underway stuck
      obtain ⟨rfl, rfl⟩ := comes.points.eq_of_stuck place_lt.le underway stuck (by simp)
      refine .of_error ran forward fun larger => ?_
      rcases deeper.eq_or_lt with same | further
      · have comes' := (here.allowing le).comes_scanStatement
        rw [same] at comes'
        exact absurd comes'.points.exceeds.1 larger.ne
      · exact further larger
    · exact (here.not_ended underway stuck ran).elim
    · obtain ⟨_, absurd, -⟩ := what
      cases absurd
  | cons statement statements ih =>
    obtain ⟨outcome, cursor, ran, what⟩ := course.exists_run
    have comes := here.comes_scanStatement
    have deeper := settings.deeper_scanStatement le before rest
    rw [ran] at comes deeper
    rcases outcome with fault | _ | statement
    · cases what.1
    · cases what.1
    · obtain ⟨others, same, further⟩ := what
      obtain ⟨rfl, rfl⟩ := List.cons.inj same
      cases comes with
      | on there =>
        exact .behind ran deeper.eq_of_ok (there.le_of_stuck underway stuck) (ih there further)

end InMemory

/-- **The limit for nested groups is an exact cut.** Some bytes are read in memory, with one limit and
with another that is not smaller. If the reading with the larger one comes to no parenthesis that
opens a group where as many are open as the smaller limit allows, both are the same, call by call.
If it does, then at the first of them the other one is cut off, for that cause.

Parentheses in quoted texts, names and comments do not count, nor anything else that is part of a
blank or of a token that is no group. And where a token ends, or a statement, as many groups are open
as where it began, so what stands side by side does not add up. -/
theorem transcript_nesting (bytes : Array UInt8) (settings : Settings) {limit : Nat}
    (le : settings.maxDepth ≤ limit) :
    let short := ofBytes bytes settings
    let long := ofBytes bytes (settings.allowing limit)
    let exceeds := Exceeds settings.maxDepth limit bytes.toList
    ((∀ place, ¬ exceeds place) → ∀ count, short.transcript count = long.transcript count)
      ∧ (∀ place, IsLeast {place | exceeds place} place →
        short.CutOff long
          (.malformed (.nestingTooDeep settings.maxDepth)
            { offset := place,
              excerpt := Utf8.decode ((bytes.toList.drop place).take settings.excerptLength) })
          place)
      ∧ (∀ depth before part rest, before ++ (part ++ rest) = bytes.toList →
        Underway limit depth before (part ++ rest) →
        (Blank part rest ∨ ∃ token, Lexeme token part rest) →
        ∀ place, before.length ≤ place → place < before.length + part.length → ¬ exceeds place)
      ∧ (∀ depth before source rest, before ++ (source ++ rest) = bytes.toList →
        Underway limit depth before (source ++ rest) →
        ((∃ token, Item limit depth token source rest)
          ∨ depth = 0 ∧ ∃ statement, IsStatement limit statement source rest) →
        ∀ after, Underway limit after (before ++ source) rest ↔ after = depth) := by
  intro short long exceeds
  have start : settings.Reached bytes.toList 0 bytes.toList.length [] bytes.toList :=
    ⟨rfl, .nil, le_rfl⟩
  refine ⟨fun none count => transcript_allowing le none start count, fun place least => ?_, ?_, ?_⟩
  · obtain ⟨statements, ending, course, -⟩ := exists_course settings [] bytes.toList 0
    exact cutOff_of_stuck le (Exceeds.within least) least.1.stuck start course
  · intro depth before part rest split underway h place from_start to_end
    exact Exceeds.not_inside split underway h from_start to_end
  · intro depth before source rest _ underway h after
    have way : Parts limit depth depth source rest := by
      rcases h with ⟨token, item⟩ | ⟨rfl, statement, isStatement⟩
      · exact item.parts
      · exact isStatement.parts
    have behind : Underway limit depth (before ++ source) rest := Parts.append underway way
    exact ⟨fun there => there.depth_unique behind, fun same => same ▸ behind⟩

/-- A group in a group, with a parenthesis in a quoted text, behind which others would be. -/
theorem transcript_nesting_pair :
    let bytes := bytesOf "(('(')) ();"
    let short := ofBytes bytes { maxDepth := 1 }
    let long := ofBytes bytes { maxDepth := 2 }
    (1 : Nat) ≤ 2
      ∧ IsLeast {place | Exceeds 1 2 bytes.toList place} 1
      ∧ short.CutOff long
        (.malformed (.nestingTooDeep 1) { offset := 1, excerpt := "('(')) ();" }) 1
      ∧ (long.transcript 1).map Prod.snd = [11] := by
  intro bytes short long
  have least : IsLeast {place | Exceeds 1 2 bytes.toList place} 1 := by
    refine ⟨⟨by decide +kernel, Part.parts (.opens (by decide))⟩, fun place exceeds => ?_⟩
    by_contra early
    obtain rfl : place = 0 := by omega
    have none : Parts 2 0 1 [] bytes.toList := exceeds.underway
    exact absurd none.eq_of_nil (by decide)
  have excerpt : Utf8.decode ((bytes.toList.drop 1).take 40) = "('(')) ();" := by decide +kernel
  have cut := (transcript_nesting bytes { maxDepth := 1 } (show 1 ≤ 2 by decide)).2.1 1 least
  dsimp only at cut
  rw [excerpt] at cut
  exact ⟨by decide, least, cut, by decide +kernel⟩

end Reader

end TableDump
