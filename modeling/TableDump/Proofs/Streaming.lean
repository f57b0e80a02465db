import Mathlib
import TableDump.Cursor.InMemory
import TableDump.Cursor.Streaming
import TableDump.Proofs.Scan
import TableDump.Proofs.Window

/-!
# A cursor over a source is one over its bytes

A cursor over a source stands somewhere in the input, and its window shows the
input from there on, as far as it has been given out. A cursor in memory that
stands at the same place has the same bytes in front of it, all of them at
once. `Streaming.Mirrors` relates the two.

Each question that is put to both of them gets one answer
(`Streaming.Agrees`), and leaves them related – unless the source fails, and
then the cursor over it is where it was. What a question does to the window
has no influence on that: neither where the window ends when the question is
asked, nor how many requests it takes to answer, nor what they leave in it.

One question is an exception, and is not asked when reading (`Query.Sensible`):
the empty needle, which in memory is found at the end of the input also.
-/

namespace TableDump

/-- In memory all that comes next can be had. -/
theorem InMemory.answer_preview (memory : InMemory) (count : Nat) :
    memory.answer (.preview count) = (.ok (memory.ahead.take count), memory) := by
  rw [InMemory.answer, Array.toList_extract, List.extract_eq_take_drop, Nat.add_sub_cancel_left]
  rfl

namespace Streaming

/-- **The cursor stands in its window where the one in memory stands in the
input.** -/
structure Mirrors (stream : Streaming) (memory : InMemory) : Prop where
  /-- The window shows the input. -/
  shows : stream.window.Shows memory.bytes
  /-- It does not invent an end. -/
  truthful : stream.window.Truthful
  /-- The cursors stand at the same place. -/
  position_eq : stream.position = memory.position
  /-- This place has not been released. -/
  floor_le : stream.window.floor ≤ memory.position
  /-- All before it has been given out. -/
  position_le : memory.position ≤ stream.window.buffered

variable {α : Type} {stream stream' : Streaming} {memory memory' : InMemory}

/-- **What an operation comes to on a cursor over a source**, compared to what
it comes to in memory. -/
inductive Agrees (stream : Streaming) (memory : InMemory) :
    Except Fault α × Streaming → Except Fault α × InMemory → Prop
  /-- It comes to the same. -/
  | same {outcome : Except Fault α} {stream' : Streaming} {memory' : InMemory} :
      stream'.Mirrors memory' →
      (stream.window.source.Reliable → stream'.window.source.Reliable) →
      Agrees stream memory (outcome, stream') (outcome, memory')
  /-- The source fails, and the cursor stays where it is. -/
  | failed {error : SourceError} {stream' : Streaming} {inMemory : Except Fault α × InMemory} :
      ¬ stream.window.source.Reliable → stream'.Mirrors memory →
      Agrees stream memory (.error (.source error), stream') inMemory

namespace Mirrors

/-- At the start of a source. -/
theorem ofSource {bytes : Array UInt8} {script : List Reply} (sizing : Window.Sizing)
    (honest : KeepsGiving bytes.size script) :
    (Streaming.ofSource { bytes, script } sizing).Mirrors { bytes } where
  shows := .ofSource script sizing
  truthful := ⟨honest, by simp [Streaming.ofSource, ofWindow, Window.ofSource]⟩
  position_eq := rfl
  floor_le := le_rfl
  position_le := Nat.zero_le _

/-- The place is one of the input. -/
theorem position_le_size (h : stream.Mirrors memory) : memory.position ≤ memory.bytes.size :=
  h.position_le.trans (h.shows.buffered_eq.trans_le h.shows.given_le)

/-- They have equally much in front of them. -/
theorem left_eq (h : stream.Mirrors memory) : stream.left = memory.remaining := by
  have := h.shows.given_le
  rw [left, InMemory.remaining, Source.left, h.shows.buffered_eq, h.shows.bytes_eq, h.position_eq]
  omega

/-- Asking the source does not move the cursor. -/
theorem withWindow (h : stream.Mirrors memory) {window : Window}
    (reaches : stream.window.Reaches memory.bytes window) :
    (stream.withWindow window).Mirrors memory where
  shows := reaches.shows
  truthful := reaches.truthful h.truthful
  position_eq := h.position_eq
  floor_le := reaches.floor_eq.trans_le h.floor_le
  position_le := h.position_le.trans (reaches.buffered_le h.shows)

/-- **A question about the window is answered by the input.** -/
theorem agrees_of_yields (h : stream.Mirrors memory) {window : Window}
    (reaches : stream.window.Reaches memory.bytes window) {expected outcome : Except Fault α}
    (yields : stream.window.source.Yields expected outcome) :
    Agrees stream memory (outcome, stream.withWindow window) (expected, memory) := by
  rcases yields with rfl | ⟨unreliable, error, rfl⟩
  · exact .same (h.withWindow reaches) reaches.reliable
  · exact .failed unreliable (h.withWindow reaches)

/-! ## The questions, one by one -/

theorem agrees_peek (h : stream.Mirrors memory) (offset : Nat) :
    Agrees stream memory (stream.answer (.peek offset)) (memory.answer (.peek offset)) := by
  obtain ⟨reaches, yields⟩ := h.shows.byteAt h.truthful
    (h.floor_le.trans (Nat.le_add_right memory.position offset)) rfl
  rw [answer, InMemory.answer, h.position_eq]
  exact h.agrees_of_yields reaches yields

theorem agrees_slice (h : stream.Mirrors memory) (start stop : Nat) :
    Agrees stream memory (stream.answer (.slice start stop))
      (memory.answer (.slice start stop)) := by
  obtain ⟨reaches, yields⟩ := h.shows.slice h.truthful (memory.position + stop)
    (h.floor_le.trans (Nat.le_add_right memory.position start)) rfl
  rw [answer, h.position_eq]
  have agrees := h.agrees_of_yields reaches yields
  have inside : (memory.position + start ≤ memory.position + stop
      ∧ memory.position + stop ≤ memory.bytes.size)
      ↔ start ≤ stop ∧ stop ≤ memory.remaining := by
    have := h.position_le_size
    rw [InMemory.remaining]
    omega
  rw [InMemory.answer]
  simp only [inside] at agrees
  dsimp only
  split
  · rwa [if_pos ‹_›] at agrees
  · rwa [if_neg ‹_›] at agrees

/-- A search in the window comes to the same as one in the input. -/
theorem agrees_search (h : stream.Mirrors memory) {find : Array UInt8 → Nat → Option Nat}
    {spot : Bytes → Prop} {width : Nat} (locates : Locates find spot width) (start : Nat) :
    Agrees stream memory (stream.search find (width - 1) start)
      (.ok (memory.offset? (find memory.bytes (memory.position + start))), memory) := by
  obtain ⟨reaches, yields⟩ := h.shows.search h.truthful locates
    (h.floor_le.trans (Nat.le_add_right memory.position start)) rfl
  rw [search, h.position_eq]
  refine h.agrees_of_yields reaches (yields.imp (fun eq => ?_) fun failed => ?_)
  · rw [eq]
    rfl
  · obtain ⟨unreliable, error, eq⟩ := failed
    exact ⟨unreliable, error, by rw [eq]; rfl⟩

/-- **Standing at an available place releases what is before it**, and nothing
else is to be seen of that. -/
theorem ofReleased {window : Window} {bytes : Array UInt8} {position : Nat}
    (shows : window.Shows bytes) (truthful : window.Truthful)
    (enough : position ≤ window.buffered) (hfloor : window.floor ≤ position) :
    ∃ window', window.discardBefore position = (.ok (), window')
      ∧ Mirrors { window := window', position } { bytes, position }
      ∧ window'.source = window.source := by
  obtain ⟨window', discarded, shows', source_eq, exhausted_eq, floor_le⟩ :=
    shows.discardBefore enough hfloor
  refine ⟨window', discarded, ⟨shows', ⟨source_eq ▸ truthful.honest, ?_⟩, rfl, floor_le, ?_⟩,
    source_eq⟩
  · rw [source_eq, exhausted_eq]
    exact truthful.given_eq
  · rw [shows'.buffered_eq, source_eq, ← shows.buffered_eq]
    exact enough

theorem agrees_advance (h : stream.Mirrors memory) (count : Nat) :
    Agrees stream memory (stream.answer (.advance count)) (memory.answer (.advance count)) := by
  have size := h.position_le_size
  rw [answer, advance, InMemory.answer, h.position_eq]
  dsimp only
  split
  all_goals
    rename_i ensured
    obtain ⟨reaches, ended⟩ := h.shows.ensure ensured
    cases ended
  case failed unreliable => exact .failed unreliable (h.withWindow reaches)
  case ended window short exhausted =>
    rw [(reaches.truthful h.truthful).buffered_eq reaches.shows exhausted] at short
    rw [if_neg (by rw [InMemory.remaining]; omega)]
    exact .same (h.withWindow reaches) reaches.reliable
  case available window enough =>
    have given := reaches.shows.given_le
    have buffered := reaches.shows.buffered_eq
    obtain ⟨window', discarded, mirrors, source_eq⟩ := ofReleased reaches.shows
      (reaches.truthful h.truthful) enough
      (reaches.floor_eq.trans_le (h.floor_le.trans (Nat.le_add_right _ _)))
    rw [if_pos (by rw [InMemory.remaining]; omega), discarded]
    exact .same mirrors fun reliable => source_eq ▸ reaches.reliable reliable

/-- Going to the end of what is held does not fail. -/
theorem skipHeld (h : stream.Mirrors memory) :
    ∃ stream', stream.skipHeld = (.ok (), stream')
      ∧ stream'.Mirrors { memory with position := stream.window.buffered }
      ∧ stream'.window.source = stream.window.source := by
  unfold Streaming.skipHeld
  split
  case isTrue =>
    obtain ⟨window', discarded, mirrors, source_eq⟩ := ofReleased h.shows h.truthful le_rfl
      (h.floor_le.trans h.position_le)
    rw [discarded]
    exact ⟨_, rfl, mirrors, source_eq⟩
  case isFalse there =>
    have position_eq : memory.position = stream.window.buffered := by
      have := h.position_eq
      have := h.position_le
      omega
    rw [← position_eq]
    exact ⟨stream, rfl, h, rfl⟩

/-- **Skipping comes to the end of the input**, or the source fails and the
cursor stands somewhere before. -/
theorem skipRest (h : stream.Mirrors memory) {outcome : Except Fault Unit}
    (e : stream.skipRest = (outcome, stream')) :
    (outcome = .ok () ∧ stream'.Mirrors { memory with position := memory.bytes.size }
        ∧ (stream.window.source.Reliable → stream'.window.source.Reliable))
      ∨ ¬ stream.window.source.Reliable ∧ (∃ error, outcome = .error (.source error))
        ∧ ∃ position, memory.position ≤ position
          ∧ stream'.Mirrors { memory with position } := by
  obtain ⟨held, skipped, mirrors, source_eq⟩ := h.skipHeld
  -- each round goes to the end of what is held and asks for more
  fun_induction Streaming.skipRest stream generalizing memory held with
  | case1 stream fault failed skipped' => simp [skipped] at skipped'
  | case2 stream stream₁ skipped' fault window ensured =>
    obtain rfl : stream₁ = held := by simpa [skipped] using skipped'.symm
    obtain ⟨rfl, rfl⟩ := Prod.mk.inj e
    obtain ⟨reaches, ended⟩ := mirrors.shows.ensure ensured
    cases ended with
    | failed unreliable =>
      exact .inr ⟨source_eq ▸ unreliable, ⟨_, rfl⟩, _, h.position_le, mirrors.withWindow reaches⟩
  | case3 stream stream₁ skipped' window ensured =>
    obtain rfl : stream₁ = held := by simpa [skipped] using skipped'.symm
    obtain ⟨rfl, rfl⟩ := Prod.mk.inj e
    obtain ⟨reaches, ended⟩ := mirrors.shows.ensure ensured
    have here : stream.window.buffered = stream₁.window.buffered := by
      rw [h.shows.buffered_eq, mirrors.shows.buffered_eq, source_eq]
    have further := reaches.buffered_le mirrors.shows
    cases ended with
    | ended short exhausted =>
      have all := (reaches.truthful mirrors.truthful).buffered_eq reaches.shows exhausted
      have position_eq : stream.window.buffered = memory.bytes.size := by
        dsimp only at all
        omega
      rw [position_eq] at mirrors reaches
      exact .inl ⟨rfl, mirrors.withWindow reaches, fun reliable =>
        reaches.reliable (source_eq ▸ reliable)⟩
  | case4 stream stream₁ skipped' window ensured ih =>
    obtain rfl : stream₁ = held := by simpa [skipped] using skipped'.symm
    obtain ⟨reaches, -⟩ := mirrors.shows.ensure ensured
    have next := mirrors.withWindow reaches
    obtain ⟨held', skipped', mirrors', source_eq'⟩ := next.skipHeld
    have reliable : stream.window.source.Reliable → window.source.Reliable :=
      fun reliable => reaches.reliable (source_eq ▸ reliable)
    rcases ih next e held' skipped' mirrors' source_eq' with ⟨ok, there, kept⟩ | failed
    · exact .inl ⟨ok, there, kept ∘ reliable⟩
    · obtain ⟨unreliable, error, position, further, there⟩ := failed
      exact .inr ⟨unreliable ∘ reliable, error, position, h.position_le.trans further, there⟩

/-- **A preview shows a beginning of what comes next**, and all of it if the
source does not fail meanwhile. -/
theorem preview (h : stream.Mirrors memory) (count : Nat) :
    ∃ shown stream', stream.answer (.preview count) = (.ok shown, stream')
      ∧ stream'.Mirrors memory ∧ shown <+: memory.ahead.take count
      ∧ (stream.window.source.Reliable → stream'.window.source.Reliable)
      ∧ (stream'.window.source.failures = stream.window.source.failures →
        shown = memory.ahead.take count) := by
  obtain ⟨reaches, next, shown_eq, isPrefix, all⟩ :=
    h.shows.previewOnto h.truthful h.floor_le [] count rfl
  rw [List.reverse_nil, List.nil_append] at shown_eq
  refine ⟨next, stream.withWindow _, ?_, h.withWindow reaches, isPrefix, reaches.reliable, all⟩
  rw [answer, Window.preview, h.position_eq, ← shown_eq]

end Mirrors

/-! ## All of them together -/

/-- Over a reliable source an operation comes to the same as in memory. -/
theorem Agrees.of_reliable {onStream : Except Fault α × Streaming}
    {inMemory : Except Fault α × InMemory} (h : Agrees stream memory onStream inMemory)
    (reliable : stream.window.source.Reliable) :
    onStream.1 = inMemory.1
      ∧ onStream.2.Mirrors inMemory.2 ∧ onStream.2.window.source.Reliable := by
  cases h with
  | same mirrors kept => exact ⟨rfl, mirrors, kept reliable⟩
  | failed unreliable => exact absurd reliable unreliable

/-- **A question is answered as in memory**, or the source fails and the cursor
stays where it is. Skipping and showing what comes next have laws of their
own. -/
theorem Mirrors.agrees (h : stream.Mirrors memory) (query : Query) (sensible : query.Sensible)
    (skip : query ≠ .skipRest) (shown : ∀ count, query ≠ .preview count) :
    Agrees stream memory (stream.answer query) (memory.answer query) := by
  cases query with
  | peek offset => exact h.agrees_peek offset
  | advance count => exact h.agrees_advance count
  | slice start stop => exact h.agrees_slice start stop
  | find needle start => exact h.agrees_search (locates_findBytes sensible) start
  | findEither a b start => exact h.agrees_search (locates_findEither a b) start
  | skipRest => exact absurd rfl skip
  | preview count => exact absurd rfl (shown count)

/-- **Over a reliable source every sensible question is answered as in
memory.** -/
theorem Mirrors.answer (h : stream.Mirrors memory) (reliable : stream.window.source.Reliable)
    (query : Query) (sensible : query.Sensible) :
    (stream.answer query).1 = (memory.answer query).1
      ∧ (stream.answer query).2.Mirrors (memory.answer query).2
      ∧ (stream.answer query).2.window.source.Reliable := by
  cases query with
  | peek offset | advance count | slice start stop | find needle start | findEither a b start =>
    exact (h.agrees _ sensible nofun nofun).of_reliable reliable
  | skipRest =>
    rcases h.skipRest rfl with ⟨ok, there, kept⟩ | ⟨unreliable, -⟩
    · exact ⟨ok, there, kept reliable⟩
    · exact absurd reliable unreliable
  | preview count =>
    obtain ⟨shown, stream', eq, mirrors, -, kept, all⟩ := h.preview count
    have calm : stream'.window.source.failures = stream.window.source.failures := by
      rw [Source.reliable_iff.1 (kept reliable), Source.reliable_iff.1 reliable]
    rw [eq, InMemory.answer_preview, ← all calm]
    exact ⟨rfl, mirrors, kept reliable⟩

/-- **A cursor over a reliable source cannot be told from one in memory.** -/
theorem lockstep : Lockstep Query.Sensible
    fun (stream : Streaming) (memory : InMemory) =>
      stream.Mirrors memory ∧ stream.window.source.Reliable where
  position_eq h := h.1.position_eq
  left_eq h := h.1.left_eq
  answer_eq query h sensible := (h.1.answer h.2 query sensible).1
  answer_related query h sensible := (h.1.answer h.2 query sensible).2

end Streaming

end TableDump
