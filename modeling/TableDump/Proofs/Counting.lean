import Mathlib
import TableDump.Cursor.InMemory
import TableDump.Cursor.Streaming
import TableDump.Proofs.Lookahead
import TableDump.Proofs.Ranges

/-!
# Sums that are numbers

A cursor adds what it is asked for to its position, and a window adds a step to its floor.
Numbers end, and where such a sum would be beyond the last of them there is no answer
(`Cursor.answer?`). When does that happen?

Whoever asks chooses the offset, so he can choose one that is too large, and the sum with it
is all that counts: a question has an answer unless the position and what it reaches beyond
it make more than the largest number (`Streaming.answer?_eq`). The window does not get in
the way. Its floor is moved by more than a step at a time, so it is zero or larger than a
step, and as it stays in the input, a step behind it there is always a position
(`Window.Counted`).

In memory less is added up, so that more questions have an answer (`InMemory.answer?_eq`): a
byte is looked for among those in front of the cursor, and only the ends of a range are
reckoned from the start of the input.

A window changes by being asked for a position and by releasing what is below one that is
available, and by nothing else. So what these two keep is kept by every question
(`Streaming.kept_answer`), and by every reading.
-/

namespace TableDump

variable {α : Type} {bytes : Array UInt8}

/-! ## What the window keeps -/

namespace Streaming

variable {stream : Streaming} {kept : Window → Prop}

section

variable (ensure : ∀ {window : Window} (position : Nat), kept window →
  kept (window.ensure position).2)
include ensure

theorem kept_byteAt {window : Window} (h : kept window) (index : Nat) :
    kept (window.byteAt index).2 := by
  have asked := ensure (index + 1) h
  unfold Window.byteAt
  split
  · exact h
  · split
    all_goals
      rename_i ensured
      rwa [ensured] at asked

theorem kept_slice {window : Window} (h : kept window) (start stop : Nat) :
    kept (window.slice start stop).2 := by
  have asked := ensure stop h
  have ranged : kept (window.range start stop).2 := by
    unfold Window.range
    split
    · exact h
    · split
      · exact h
      · split
        all_goals
          rename_i ensured
          rwa [ensured] at asked
  unfold Window.slice
  split
  all_goals
    rename_i found
    rwa [found] at ranged

theorem kept_search {window : Window} (h : kept window) (find : Array UInt8 → Nat → Option Nat)
    (overlap start : Nat) : kept (window.search find overlap start).2 := by
  fun_induction Window.search window find overlap start with
  | case1 => exact h
  | case2 window start nothing fault next ensured
  | case3 window start nothing next ensured =>
    have asked := ensure (window.buffered + 1) h
    rwa [ensured] at asked
  | case4 window start nothing next ensured ih =>
    have asked := ensure (window.buffered + 1) h
    rw [ensured] at asked
    exact ih asked

theorem kept_previewOnto {window : Window} (h : kept window) (before : Bytes) (start count : Nat) :
    kept (window.previewOnto before start count).2 := by
  induction count generalizing window before start with
  | zero => exact h
  | succ count ih =>
    have looked := kept_byteAt ensure h start
    rw [Window.previewOnto]
    split
    all_goals
      rename_i found
      rw [found] at looked
    · exact ih looked _ _
    · exact looked

variable
  (release : ∀ {window : Window} {position : Nat}, position ≤ window.buffered → kept window →
    kept (window.discardBefore position).2)
include release

omit ensure in
theorem kept_skipHeld (h : kept stream.window) : kept stream.skipHeld.2.window := by
  unfold Streaming.skipHeld
  split
  · exact release le_rfl h
  · exact h

theorem kept_skipRest (h : kept stream.window) : kept stream.skipRest.2.window := by
  -- each round skips what is held and asks for more
  fun_induction Streaming.skipRest stream with
  | case1 stream fault next skipped =>
    have passed := kept_skipHeld release h
    rwa [skipped] at passed
  | case2 stream next skipped fault window ensured
  | case3 stream next skipped window ensured =>
    have passed := kept_skipHeld release h
    rw [skipped] at passed
    have asked := ensure (next.window.buffered + 1) passed
    rwa [ensured] at asked
  | case4 stream next skipped window ensured ih =>
    have passed := kept_skipHeld release h
    rw [skipped] at passed
    have asked := ensure (next.window.buffered + 1) passed
    rw [ensured] at asked
    exact ih asked

variable (kept) in
/-- **What is kept by asking for a position and by releasing** is kept by every question. -/
theorem kept_answer (h : kept stream.window) (query : Query) :
    kept (stream.answer query).2.window := by
  cases query with
  | peek offset => exact kept_byteAt ensure h _
  | slice start stop => exact kept_slice ensure h _ _
  | find needle start | findEither a b start => exact kept_search ensure h _ _ _
  | preview count => exact kept_previewOnto ensure h _ _ _
  | skipRest => exact kept_skipRest ensure release h
  | advance count =>
    have asked := ensure (stream.position + count) h
    show kept (stream.advance count).2.window
    unfold Streaming.advance
    dsimp only
    split
    all_goals
      rename_i ensured
      rw [ensured] at asked
    · exact asked
    · exact asked
    · exact release (Window.le_of_ensure ensured) asked

end

end Streaming

/-! ## A step behind the floor -/

namespace Window

variable {window : Window}

/-- **A window in which a step behind the floor is a position.** -/
structure Counted (bytes : Array UInt8) (window : Window) : Prop where
  shows : window.Shows bytes
  step_le : window.step ≤ Index.largest
  /-- The floor is moved by more than a step. -/
  apart : window.floor = 0 ∨ window.step < window.floor

namespace Counted

/-- At the start of a source. -/
theorem ofSource {bytes : Array UInt8} (script : List Reply) {sizing : Sizing}
    (step_le : sizing.step ≤ Index.largest) :
    (Window.ofSource { bytes, script } sizing).Counted bytes :=
  ⟨.ofSource script sizing, max_le step_le (by decide), .inl rfl⟩

/-- Asking for a position releases nothing. -/
theorem ensure (h : window.Counted bytes) (position : Nat) :
    (window.ensure position).2.Counted bytes := by
  obtain ⟨reaches, -⟩ := h.shows.ensure (Prod.eta (window.ensure position)).symm
  refine ⟨reaches.shows, ?_, ?_⟩
  · exact reaches.step_eq.trans_le h.step_le
  · rw [reaches.floor_eq, reaches.step_eq]
    exact h.apart

/-- Releasing moves the floor to a position that is more than a step behind it, or leaves it
in its place. -/
theorem discardBefore (h : window.Counted bytes) {position : Nat}
    (enough : position ≤ window.buffered) : (window.discardBefore position).2.Counted bytes := by
  have shows := (h.shows.proceeds_discardBefore position).shows
  unfold Window.discardBefore at shows ⊢
  rw [ensure_of_le enough] at shows ⊢
  dsimp only at shows ⊢
  split
  case isTrue near => exact h
  case isFalse far =>
    rw [if_neg far] at shows
    refine ⟨shows, h.step_le, .inr ?_⟩
    show window.step < min position window.buffered
    omega

/-- **A step behind the floor there is a position**, since memory takes less than half of
them. -/
theorem floor_add_step_le (h : window.Counted bytes) (inMemory : bytes.size ≤ Index.mostBytes) :
    window.floor + window.step ≤ Index.largest := by
  have inside : window.floor ≤ Index.mostBytes :=
    (Nat.le_add_right _ _).trans
      ((h.shows.buffered_eq.trans_le h.shows.given_le).trans inMemory)
  rcases h.apart with start | apart
  · rw [start, Nat.zero_add]
    exact h.step_le
  · exact Index.add_le_largest inside (apart.le.trans inside)

/-- So releasing comes to something. -/
theorem discardBefore?_eq (h : window.Counted bytes) (inMemory : bytes.size ≤ Index.mostBytes)
    (position : Nat) : window.discardBefore? position = some (window.discardBefore position) := by
  rcases released : window.discardBefore? position with _ | outcome
  · obtain ⟨available, next, ensured, beyond⟩ := discardBefore?_eq_none_iff.1 released
    have asked := h.ensure position
    rw [ensured] at asked
    exact absurd (asked.floor_add_step_le inMemory) (Nat.not_le.2 beyond)
  · rw [discardBefore_of_discardBefore? released]

end Counted

end Window

/-! ## Questions -/

namespace Streaming

variable {stream : Streaming}

/-- A question leaves a window in which a step behind the floor is a position. -/
theorem counted_answer (h : stream.window.Counted bytes) (query : Query) :
    (stream.answer query).2.window.Counted bytes :=
  kept_answer (Window.Counted bytes) (fun position before => before.ensure position)
    (fun enough before => before.discardBefore enough) h query

/-- So does a reading. -/
theorem counted_run (h : stream.window.Counted bytes) (scan : Scan α) :
    (scan.run stream).2.window.Counted bytes := by
  induction scan generalizing stream with
  | done value => exact h
  | fail fault => exact h
  | locate next ih =>
    rw [Scan.run]
    exact ih _ _ h
  | ask query next ih =>
    have after : (Cursor.answer query stream).2.window.Counted bytes := counted_answer h query
    rw [Scan.run]
    revert after
    rcases Cursor.answer query stream with ⟨fault | answer, stream'⟩
    · exact id
    · exact fun after => ih answer after

theorem advance?_eq (h : stream.window.Counted bytes) (inMemory : bytes.size ≤ Index.mostBytes)
    {count : Nat} (within : stream.position + count ≤ Index.largest) :
    stream.advance? count = some (stream.advance count) := by
  have asked := h.ensure (stream.position + count)
  unfold advance? advance
  rw [Index.add?_eq_some within]
  dsimp only [Option.bind_eq_bind, Option.bind_some]
  rcases ensured : stream.window.ensure (stream.position + count) with ⟨_ | _ | _, window⟩
  · rfl
  · rfl
  · rw [ensured] at asked
    dsimp only
    rw [asked.discardBefore?_eq inMemory]
    rfl

theorem skipHeld?_eq (h : stream.window.Counted bytes) (inMemory : bytes.size ≤ Index.mostBytes) :
    stream.skipHeld? = some stream.skipHeld := by
  unfold skipHeld? skipHeld
  split
  · rw [h.discardBefore?_eq inMemory]
    rfl
  · rfl

/-- **Going to the end comes to something**: it takes no number that is chosen. -/
theorem skipRest?_eq (h : stream.window.Counted bytes) (inMemory : bytes.size ≤ Index.mostBytes) :
    stream.skipRest? = some stream.skipRest := by
  have answered : stream.skipRest? ≠ none := by
    fun_induction skipRest? stream with
    | case1 stream stopped => cases stopped.symm.trans (skipHeld?_eq h inMemory)
    | case2 | case3 | case4 => exact Option.some_ne_none _
    | case5 stream next skipped window ensured ih =>
      have passed := kept_skipHeld (fun enough before => before.discardBefore enough) h
      rw [skipHeld_of_skipHeld? skipped] at passed
      have asked := passed.ensure (next.window.buffered + 1)
      rw [ensured] at asked
      exact ih asked
  obtain ⟨skipped, eq⟩ := Option.ne_none_iff_exists'.1 answered
  rw [eq, skipRest_of_skipRest? eq]

/-- **A question to a cursor over a source has an answer** unless it reaches beyond all
numbers. -/
theorem answer?_eq (h : stream.window.Counted bytes) (inMemory : bytes.size ≤ Index.mostBytes)
    (floor_le : stream.window.floor ≤ stream.position) (inside : stream.position ≤ bytes.size)
    (query : Query) :
    stream.answer? query = if Index.largest < stream.position + query.reach then none
      else some (stream.answer query) := by
  have within : stream.position ≤ Index.largest := inside.trans (inMemory.trans (by decide))
  cases query with
  | peek offset =>
    show (Index.add? _ _ >>= fun index => stream.window.byteAt? index >>= _)
      = if Index.largest < stream.position + (offset + 1) then none else _
    rw [Index.add?_bind, Window.byteAt?_eq]
    split_ifs <;> first | rfl | omega
  | advance count =>
    show stream.advance? count = if Index.largest < stream.position + count then none else _
    split
    case isTrue beyond =>
      rw [advance?, Index.add?_bind, if_pos beyond]
    case isFalse enough => exact advance?_eq h inMemory (Nat.not_lt.1 enough)
  | slice start stop =>
    show (Index.add? _ _ >>= fun _ => Index.add? _ _ >>= fun _ => some (stream.answer _))
      = if Index.largest < stream.position + max start stop then none else _
    rw [Index.add?_bind, Index.add?_bind]
    split_ifs <;> first | rfl | omega
  | find needle start | findEither a b start => exact Index.add?_bind _ _ _
  | skipRest => exact (skipRest?_eq h inMemory).trans (if_neg (Nat.not_lt.2 within)).symm
  | preview count => exact (if_neg (Nat.not_lt.2 within)).symm

end Streaming

/-- How far a question reaches in memory, where only ranges are reckoned from the start of
the input. -/
def Query.reachInMemory (query : Query) : Nat :=
  match query.range? with
  | some (start, stop) => max start stop
  | none => 0

/-- That is not further than over a source. -/
theorem Query.reachInMemory_le (query : Query) : query.reachInMemory ≤ query.reach := by
  cases query with
  | advance count => exact (Nat.zero_max count).le
  | slice start stop => exact le_rfl
  | peek offset | find needle start | findEither a b start | skipRest | preview count =>
    exact Nat.zero_le _

/-- **A question in memory has an answer** unless it is about a range that ends beyond all
numbers. -/
theorem InMemory.answer?_eq {memory : InMemory} (inMemory : memory.bytes.size ≤ Index.mostBytes)
    (inside : memory.position ≤ memory.bytes.size) (query : Query) :
    memory.answer? query = if Index.largest < memory.position + query.reachInMemory then none
      else some (memory.answer query) := by
  have within : memory.position ≤ Index.largest := inside.trans (inMemory.trans (by decide))
  cases query with
  | advance count =>
    show (Index.add? _ _ >>= fun _ => some (memory.answer _))
      = if Index.largest < memory.position + max 0 count then none else _
    rw [Index.add?_bind, Nat.zero_max]
  | slice start stop =>
    show (Index.add? _ _ >>= fun _ => Index.add? _ _ >>= fun _ => some (memory.answer _))
      = if Index.largest < memory.position + max start stop then none else _
    rw [Index.add?_bind, Index.add?_bind]
    split_ifs <;> first | rfl | omega
  | peek offset | find needle start | findEither a b start | skipRest | preview count =>
    exact (if_neg (Nat.not_lt.2 within)).symm

end TableDump
