import Mathlib
import TableDump.Proofs.Contract
import TableDump.Proofs.Counting
import TableDump.Proofs.Endings
import TableDump.Proofs.Nesting

/-!
# Cursors go forward

Whatever a cursor is asked, and whatever comes of it, it does not go back, and it does not pass
what it knows of its input (`Advancing`). This is more than the footing of a cursor says, which
is about answers only: also a question that fails leaves the cursor at a place of the input, and
what has been seen in front of a cursor is passed when it goes to the end.

How much a cursor knows of its input is a matter of where its bytes are. In memory it is all of
them. Over a source it is what the source has given so far, and that is all there is as soon as
the source has answered a request with nothing.

Whatever the question is, the window goes on, and it does not invent an end: this is kept by
asking for a position and by releasing, and so by every question (`Streaming.kept_answer`).
-/

namespace TableDump

variable {α κ : Type}

/-- **The cursors that a cursor becomes** when it is asked any questions, whatever comes of
them. -/
inductive Cursor.Becomes [Cursor κ] (start : κ) : κ → Prop where
  | start : Becomes start start
  | asked {cursor : κ} (before : Becomes start cursor) (query : Query) :
      Becomes start (Cursor.answer query cursor).2

/-- Readings ask questions. -/
theorem Cursor.Becomes.run [Cursor κ] {start cursor : κ} (h : Cursor.Becomes start cursor)
    (scan : Scan α) : Cursor.Becomes start (scan.run cursor).2 := by
  induction scan generalizing cursor with
  | done value => exact h
  | fail fault => exact h
  | locate next ih =>
    rw [Scan.run]
    exact ih _ _ h
  | ask query next ih =>
    have after := h.asked query
    rw [Scan.run]
    revert after
    rcases Cursor.answer query cursor with ⟨fault | answer, cursor'⟩
    · exact id
    · exact fun after => ih answer after

/-- **Cursors that go forward through an input.** `known` is how much of the input a cursor knows
of, and `told` says that it knows that there is no more. -/
structure Advancing [Cursor κ] (bytes : Array UInt8) (sound : κ → Prop) (known : κ → Nat)
    (told : κ → Prop) : Prop where
  /-- Answers are true. -/
  footing : Footing bytes fun place _ cursor => Cursor.position cursor = place ∧ sound cursor
  /-- What has been shown is shown again. -/
  again : ShowsAgain κ
  kept : ∀ {cursor} (query : Query), sound cursor → sound (Cursor.answer query cursor).2
  /-- The cursor has passed nothing that it does not know of. -/
  position_le : ∀ {cursor}, sound cursor → Cursor.position cursor ≤ known cursor
  known_le : ∀ {cursor}, sound cursor → known cursor ≤ bytes.size
  /-- It does not go back. -/
  forward : ∀ {cursor} (query : Query), sound cursor →
    Cursor.position cursor ≤ Cursor.position (Cursor.answer query cursor).2
  /-- It does not forget. -/
  learns : ∀ {cursor} (query : Query), sound cursor →
    known cursor ≤ known (Cursor.answer query cursor).2
  /-- What it has seen it knows of. -/
  seen : ∀ {cursor cursor' offset byte}, sound cursor →
    Cursor.answer (.peek offset) cursor = (.ok (some byte), cursor') →
      Cursor.position cursor + offset < known cursor'
  /-- Where it sees nothing it has passed all that there is. -/
  unseen : ∀ {cursor cursor'}, sound cursor →
    Cursor.answer (.peek 0) cursor = (.ok none, cursor') →
      Cursor.position cursor' = known cursor' ∧ told cursor'
  /-- So it has at the end. -/
  skipped : ∀ {cursor cursor'}, sound cursor →
    Cursor.answer .skipRest cursor = (.ok (), cursor') → Cursor.position cursor' = known cursor'

/-- **No reading goes back**, whatever comes of it. -/
theorem Advancing.run [Cursor κ] {bytes : Array UInt8} {sound : κ → Prop} {known : κ → Nat}
    {told : κ → Prop} (h : Advancing bytes sound known told) (scan : Scan α) {cursor : κ}
    (here : sound cursor) :
    sound (scan.run cursor).2 ∧ Cursor.position cursor ≤ Cursor.position (scan.run cursor).2
      ∧ known cursor ≤ known (scan.run cursor).2 := by
  induction scan generalizing cursor with
  | done value => exact ⟨here, le_rfl, le_rfl⟩
  | fail fault => exact ⟨here, le_rfl, le_rfl⟩
  | locate next ih =>
    rw [Scan.run]
    exact ih _ _ here
  | ask query next ih =>
    have kept := h.kept query here
    have forward := h.forward query here
    have learns := h.learns query here
    rw [Scan.run]
    revert kept forward learns
    rcases Cursor.answer query cursor with ⟨fault | answer, cursor'⟩
    · exact fun kept forward learns => ⟨kept, forward, learns⟩
    · intro kept forward learns
      obtain ⟨kept', forward', learns'⟩ := ih answer kept
      exact ⟨kept', forward.trans forward', learns.trans learns'⟩

/-! ## A footing without a reach -/

/-- An answer tells no less of the input if nothing is known of how far the cursor has looked. -/
theorem Query.Tells.anywhere {bytes : Array UInt8} {query : Query} {answer : query.Answer}
    {place reach place' reach' : Nat} (h : query.Tells bytes place reach answer place' reach')
    (other : Nat) : query.Tells bytes place other answer place' 0 := by
  cases query with
  | peek offset =>
    cases answer with
    | none => exact ⟨h.1, Nat.zero_le _⟩
    | some byte => exact ⟨h.1, Nat.zero_le _, h.2.2⟩
  | advance count => exact ⟨h.1, Nat.zero_le _⟩
  | slice start stop => exact ⟨h.1, Nat.zero_le _, h.2.2⟩
  | find needle start | findEither a b start =>
    exact ⟨h.1, fun index found => ⟨Nat.zero_le _, (h.2 index found).2⟩⟩
  | skipRest => exact ⟨h.1, rfl⟩
  | preview count => exact h

/-- **Cursors of which each has a footing** have one together, if they are left such by every
question. -/
theorem Footing.of_sound [Cursor κ] {bytes : Array UInt8} {sound : κ → Prop}
    (kept : ∀ {cursor} (query : Query), sound cursor → sound (Cursor.answer query cursor).2)
    (standing : ∀ {cursor}, sound cursor → ∃ stands : (place reach : Nat) → κ → Prop,
      Footing bytes stands
        ∧ (∀ place reach cursor, stands place reach cursor → Cursor.position cursor = place)
        ∧ ∃ reach, stands (Cursor.position cursor) reach cursor) :
    Footing bytes fun place _ cursor => Cursor.position cursor = place ∧ sound cursor where
  place_le := by
    rintro _ - cursor ⟨rfl, here⟩
    obtain ⟨stands, footing, -, reach, there⟩ := standing here
    exact footing.place_le there
  left_eq := by
    rintro _ - cursor ⟨rfl, here⟩
    obtain ⟨stands, footing, -, reach, there⟩ := standing here
    exact footing.left_eq there
  answer query sensible place other cursor cursor' value := by
    rintro ⟨rfl, here⟩ ran
    obtain ⟨stands, footing, position_eq, reach, there⟩ := standing here
    obtain ⟨place', reach', there', tells⟩ :=
      footing.answer query sensible _ _ cursor cursor' value there ran
    have after := kept query here
    rw [← Scan.run_ask, ran] at after
    exact ⟨place', 0, ⟨position_eq _ _ _ there', after⟩, tells.anywhere other⟩

/-! ## In memory -/

namespace InMemory

variable {bytes : Array UInt8} {memory : InMemory}

/-- A question leaves the cursor in the input. -/
theorem Has.answer (h : memory.Has bytes 0) (query : Query) :
    (memory.answer query).2.Has bytes 0 := by
  have bytes_eq := (memory.bytes_answer query).trans h.bytes_eq
  have inside : memory.position ≤ memory.bytes.size := h.bytes_eq ▸ h.le_size
  exact ⟨bytes_eq, h.bytes_eq ▸ (forward_answer query inside).2⟩

/-- **In memory all of the input is known.** -/
theorem advancing (bytes : Array UInt8) :
    Advancing bytes (fun memory : InMemory => memory.Has bytes 0) (fun _ => bytes.size)
      fun _ => True where
  footing := by
    refine .of_sound (fun query here => here.answer query) fun {memory} here => ?_
    exact ⟨Stands bytes, footing bytes, fun _ _ _ there => there.position_eq, 0, here.bytes_eq,
      rfl, here.le_size⟩
  again := showsAgain
  kept query here := here.answer query
  position_le here := here.le_size
  known_le _ := le_rfl
  forward query here := (forward_answer query (here.bytes_eq ▸ here.le_size)).1
  learns _ _ := le_rfl
  seen {memory memory' offset byte} here put := by
    obtain ⟨found, -⟩ := Prod.mk.inj put
    rw [← here.bytes_eq]
    exact (Array.getElem?_eq_some_iff.1 (Except.ok.inj found)).1
  unseen {memory memory'} here put := by
    obtain ⟨found, rfl⟩ := Prod.mk.inj put
    have behind := Array.getElem?_eq_none_iff.1 (Except.ok.inj found)
    rw [here.bytes_eq] at behind
    exact ⟨le_antisymm here.le_size behind, trivial⟩
  skipped {memory memory'} here put := by
    obtain ⟨-, rfl⟩ := Prod.mk.inj put
    show memory.bytes.size = bytes.size
    rw [here.bytes_eq]

end InMemory

/-! ## Over a source -/

namespace Streaming

variable {bytes : Array UInt8} {stream stream' : Streaming} {known : Nat}

/-! ### What the window keeps -/

/-- **A question leaves a window that has gone on.** -/
theorem proceeds_answer (h : stream.window.Shows bytes) (query : Query) :
    stream.window.Proceeds bytes (stream.answer query).2.window := by
  refine kept_answer (stream.window.Proceeds bytes) ?_ ?_ (.refl h) query
  · exact fun position before => before.trans (before.shows.proceeds_ensure position)
  · exact fun {_ position} _ before => before.trans (before.shows.proceeds_discardBefore position)

/-- **It leaves a window that does not invent an end.** -/
theorem truthful_answer (h : stream.window.Shows bytes) (truthful : stream.window.Truthful)
    (query : Query) : (stream.answer query).2.window.Truthful := by
  have ensure : ∀ {window : Window} (position : Nat), window.Shows bytes ∧ window.Truthful →
      (window.ensure position).2.Shows bytes ∧ (window.ensure position).2.Truthful := by
    rintro window position ⟨shows, truthful⟩
    have reaches : window.Reaches bytes (window.ensure position).2 := (shows.ensure rfl).1
    exact ⟨reaches.shows, reaches.truthful truthful⟩
  refine (kept_answer (fun window => window.Shows bytes ∧ window.Truthful) ensure ?_
    ⟨h, truthful⟩ query).2
  intro window position _ before
  have asked := ensure position before
  refine ⟨(before.1.proceeds_discardBefore position).shows, ?_⟩
  unfold Window.discardBefore
  split
  · rename_i ensured
    rw [ensured] at asked
    exact asked.2
  · rename_i ensured
    rw [ensured] at asked
    split
    · exact asked.2
    · exact ⟨asked.2.honest, asked.2.given_eq⟩

/-! ### Where the cursor goes -/

/-- Going to the end of what is held leaves it held. -/
theorem Has.goes_skipHeld (h : stream.Has bytes known) :
    ∃ stream', stream.skipHeld = (.ok (), stream') ∧ stream'.Has bytes 0
      ∧ stream'.position = stream.window.buffered
      ∧ stream'.window.buffered = stream.window.buffered := by
  have inside := h.le_buffered
  obtain ⟨next, skipped, there⟩ := h.skipHeld
  refine ⟨next, skipped, there, ?_⟩
  unfold Streaming.skipHeld at skipped
  split at skipped
  · obtain ⟨discarded, rfl⟩ := Prod.mk.inj skipped
    exact ⟨rfl, (h.shows.released le_rfl (Nat.le_add_right _ _) (Prod.ext discarded rfl)).2⟩
  · obtain ⟨-, rfl⟩ := Prod.mk.inj skipped
    exact ⟨by omega, rfl⟩

/-- **Going to the end of the input** goes over all that is known of it, and over no more. If it
does not fail, it comes to the end of that. -/
theorem Has.goes_skipRest (h : stream.Has bytes known) :
    stream.position ≤ stream.skipRest.2.position
      ∧ stream.skipRest.2.position ≤ stream.skipRest.2.window.buffered
      ∧ (stream.skipRest.1 = .ok () →
        stream.skipRest.2.position = stream.skipRest.2.window.buffered) := by
  -- each round skips what is held and asks for more
  fun_induction Streaming.skipRest stream generalizing known with
  | case1 stream fault next failed =>
    obtain ⟨_, passed, -⟩ := h.skipHeld
    cases passed.symm.trans failed
  | case2 stream next passed fault window ensured =>
    obtain ⟨_, passed', there, position_eq, buffered_eq⟩ := h.goes_skipHeld
    obtain rfl := (Prod.mk.inj (passed'.symm.trans passed)).2
    have inside := h.le_buffered
    have asked := (Window.asked_ensure ensured).buffered_le
    refine ⟨?_, ?_, fun done => ?_⟩
    · simp only [Streaming.withWindow]
      omega
    · simp only [Streaming.withWindow]
      omega
    · cases done
  | case3 stream next passed window ensured =>
    obtain ⟨_, passed', there, position_eq, buffered_eq⟩ := h.goes_skipHeld
    obtain rfl := (Prod.mk.inj (passed'.symm.trans passed)).2
    have inside := h.le_buffered
    have asked := (Window.asked_ensure ensured).buffered_le
    obtain ⟨-, ended⟩ := there.shows.ensure ensured
    cases ended with
    | ended short =>
      refine ⟨?_, ?_, fun _ => ?_⟩ <;> simp only [Streaming.withWindow] <;> omega
  | case4 stream next passed window ensured ih =>
    obtain ⟨_, passed', there, position_eq, buffered_eq⟩ := h.goes_skipHeld
    obtain rfl := (Prod.mk.inj (passed'.symm.trans passed)).2
    have inside := h.le_buffered
    obtain ⟨further, rest⟩ := ih (there.withWindow (there.shows.ensure ensured).1.shows
      (Window.asked_ensure ensured))
    refine ⟨le_trans ?_ further, rest⟩
    simp only [Streaming.withWindow]
    omega

/-- **No question leads back**, or over bytes that have not been given out. -/
theorem Has.goes_answer (h : stream.Has bytes known) (query : Query) :
    stream.position ≤ (stream.answer query).2.position
      ∧ (stream.answer query).2.position ≤ (stream.answer query).2.window.buffered := by
  have proceeds := proceeds_answer h.shows query
  have held := h.le_buffered
  have more : stream.window.buffered ≤ (stream.answer query).2.window.buffered := by
    rw [h.shows.buffered_eq, proceeds.shows.buffered_eq]
    exact proceeds.given_le
  have stays : stream.position ≤ (stream.answer query).2.window.buffered := by omega
  cases query with
  | peek offset | slice start stop | find needle start | findEither a b start | preview count =>
    exact ⟨le_rfl, stays⟩
  | skipRest => exact ⟨h.goes_skipRest.1, h.goes_skipRest.2.1⟩
  | advance count =>
    change _ ∧ (stream.advance count).2.position ≤ (stream.advance count).2.window.buffered
    change _ ≤ (stream.advance count).2.window.buffered at stays
    show stream.position ≤ (stream.advance count).2.position ∧ _
    revert stays
    unfold Streaming.advance
    dsimp only
    split
    · exact fun stays => ⟨le_rfl, stays⟩
    · exact fun stays => ⟨le_rfl, stays⟩
    · rename_i window ensured
      intro _
      have shows := (h.shows.ensure ensured).1.shows
      have enough := Window.le_of_ensure ensured
      have released := shows.proceeds_discardBefore (stream.position + count)
      rw [shows.buffered_eq] at enough
      refine ⟨Nat.le_add_right _ _, enough.trans ?_⟩
      show _ ≤ (window.discardBefore (stream.position + count)).2.buffered
      rw [released.shows.buffered_eq]
      exact released.given_le

/-! ### All together -/

/-- **A cursor in a window that keeps what it was given**, and that takes its source at its word
about the end. -/
structure Sound (bytes : Array UInt8) (honest : Prop) (stream : Streaming) : Prop where
  has : stream.Has bytes 0
  near : stream.Near stream.window.step
  /-- It is the source that says where the end is. -/
  ended : stream.window.exhausted = true → stream.window.source.Ended
  truthful : honest → stream.window.Truthful

namespace Sound

variable {honest : Prop}

theorem answer (h : stream.Sound bytes honest) (query : Query) :
    (stream.answer query).2.Sound bytes honest := by
  have proceeds := proceeds_answer h.has.shows query
  have near := h.near.answer query
  refine ⟨⟨proceeds.shows, near.floor_le, (h.has.goes_answer query).2⟩, ?_,
    proceeds.told h.ended, fun yes => truthful_answer h.has.shows (h.truthful yes) query⟩
  rwa [near.step_eq]

/-- The cursor stands in its window. -/
theorem stands (h : stream.Sound bytes honest) :
    stream.Stands bytes stream.window.step stream.position stream.window.buffered :=
  ⟨h.has.shows, h.near, rfl, h.has.le_buffered, by omega⟩

/-- A byte that is looked at has been given. -/
theorem seen (h : stream.Sound bytes honest) {offset : Nat} {byte : UInt8}
    (put : stream.answer (.peek offset) = (.ok (some byte), stream')) :
    stream.position + offset < stream'.window.source.given := by
  rcases looked : stream.window.byteAt (stream.position + offset) with ⟨outcome, window⟩
  rw [Streaming.answer, looked] at put
  obtain ⟨rfl, rfl⟩ := Prod.mk.inj put
  have shows := h.has.shows.of_byteAt looked
  rcases h.has.shows.looked (h.has.floor_le.trans (Nat.le_add_right _ _)) looked
    with ⟨_, ⟨⟩⟩ | ⟨_, -, there⟩ | ⟨⟨⟩, -⟩
  have inside := (List.getElem?_eq_some_iff.1 there).1
  rwa [shows.length_delivered, shows.buffered_eq] at inside

/-- Where there is none the source has said so, and all that it has given is passed. -/
theorem unseen (h : stream.Sound bytes honest)
    (put : stream.answer (.peek 0) = (.ok none, stream')) :
    stream'.window.exhausted = true ∧ stream'.window.source.given ≤ stream.position := by
  rcases looked : stream.window.byteAt (stream.position + 0) with ⟨outcome, window⟩
  rw [Streaming.answer, looked] at put
  obtain ⟨rfl, rfl⟩ := Prod.mk.inj put
  have shows := h.has.shows.of_byteAt looked
  rcases h.has.shows.looked (h.has.floor_le.trans (Nat.le_add_right _ _)) looked
    with ⟨_, ⟨⟩⟩ | ⟨_, ⟨⟩, -⟩ | ⟨-, exhausted, short⟩
  rw [shows.length_delivered, shows.buffered_eq] at short
  exact ⟨exhausted, short⟩

/-- At the start of a source. -/
theorem ofSource (bytes : Array UInt8) (script : List Reply) (sizing : Window.Sizing) :
    (Streaming.ofSource { bytes, script } sizing).Sound bytes (KeepsGiving bytes.size script) where
  has := .ofSource bytes script sizing
  near := .ofWindow (Window.ofSource { bytes, script } sizing)
  ended := nofun
  truthful honest := (Mirrors.ofSource sizing honest).truthful

end Sound

/-- **Over a source what has been given is known**, and there is no more if the source says so. -/
theorem advancing (bytes : Array UInt8) (honest : Prop) :
    Advancing bytes (fun stream : Streaming => stream.Sound bytes honest)
      (fun stream => stream.window.source.given)
      fun stream => stream.window.source.Ended
        ∧ (honest → stream.window.source.given = bytes.size) where
  footing := by
    refine .of_sound (fun query here => here.answer query) fun {stream} here => ?_
    exact ⟨_, footing bytes stream.window.step, fun _ _ _ there => there.position_eq, _,
      here.stands⟩
  again := showsAgain
  kept query here := here.answer query
  position_le here := here.has.le_buffered.trans_eq here.has.shows.buffered_eq
  known_le here := here.has.shows.given_le
  forward query here := (here.has.goes_answer query).1
  learns query here := (proceeds_answer here.has.shows query).given_le
  seen {stream stream' offset byte} here put := here.seen put
  unseen {stream stream'} here put := by
    have after := here.answer (.peek 0)
    obtain ⟨exhausted, short⟩ := here.unseen put
    change (stream.answer (.peek 0)) = _ at put
    rw [put] at after
    have position_eq : stream'.position = stream.position := congrArg (·.2.position) put.symm
    have enough := after.has.le_buffered
    rw [after.has.shows.buffered_eq] at enough
    refine ⟨le_antisymm enough (short.trans_eq position_eq.symm), after.ended exhausted, ?_⟩
    intro yes
    rw [(after.truthful yes).given_eq exhausted, after.has.shows.bytes_eq]
  skipped {stream stream'} here put := by
    have goes := here.has.goes_skipRest
    change stream.skipRest = _ at put
    rw [put] at goes
    have shows := (proceeds_answer here.has.shows .skipRest).shows
    change stream.skipRest.2.window.Shows bytes at shows
    rw [put] at shows
    exact (goes.2.2 rfl).trans shows.buffered_eq

end Streaming

end TableDump
