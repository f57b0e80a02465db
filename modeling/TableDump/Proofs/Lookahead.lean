import Mathlib
import TableDump.Cursor.Streaming
import TableDump.Proofs.Buffering

/-!
# How far a window looks ahead

The source is asked only while a byte is missing that is wanted, and one request
asks for a step at most. So a window ends less than a step behind the last byte
that was wanted of it (`Window.Asked`), whatever the source answers and however
often it has to be asked. This holds of any window. If it shows an input, it
holds also of a search that finds something, which wants no byte behind what it
finds (`Window.Shows.search_found`).

At the other end a window keeps no more than a step behind its cursor. For that
it is enough that the cursor releases what it has passed whenever it moves
(`Streaming.Near`), since releasing leaves alone what is not worth the trouble,
and that is a step.
-/

namespace TableDump

namespace Source

variable {source source' : Source} {room : Nat} {chunk : Array UInt8}

/-- **An answer is not longer than was asked for.** -/
theorem size_of_read (h : source.read room = (.ok chunk, source')) : chunk.size ≤ room := by
  unfold read at h
  split at h
  · obtain ⟨⟨⟩, -⟩ := Prod.mk.inj h
    rw [Array.size_extract]
    omega
  · obtain ⟨⟨⟩, -⟩ := Prod.mk.inj h
    rw [Array.size_extract]
    omega
  · simp at h

theorem size_of_pull (h : source.pull room = (.ok chunk, source')) : chunk.size ≤ room :=
  have read : source.skipInterruptions.read room = (.ok chunk, source') := h
  size_of_read read

end Source

namespace Window

variable {window window' window'' : Window} {stop stop' : Nat}

/-- **What asking for the bytes below `stop` does to a window**, whatever comes of
it. -/
structure Asked (stop : Nat) (window window' : Window) : Prop where
  /-- Nothing is released. -/
  floor_eq : window'.floor = window.floor
  step_eq : window'.step = window.step
  /-- Nothing is lost. -/
  buffered_le : window.buffered ≤ window'.buffered
  /-- If anything is gained, the last request was made while a byte below `stop`
  was missing. -/
  buffered_lt : window'.buffered < max (window.buffered + 1) (stop + window.step)

namespace Asked

/-- Not asking at all. -/
theorem refl (stop : Nat) (window : Window) : window.Asked stop window :=
  ⟨rfl, rfl, le_rfl, by omega⟩

/-- Asking again. -/
theorem trans (h : Asked stop window window') (h' : Asked stop' window' window'') :
    Asked (max stop stop') window window'' where
  floor_eq := h'.floor_eq.trans h.floor_eq
  step_eq := h'.step_eq.trans h.step_eq
  buffered_le := h.buffered_le.trans h'.buffered_le
  buffered_lt := by
    have first := h.buffered_lt
    have second := h'.buffered_lt
    rw [h.step_eq] at second
    omega

theorem mono (h : Asked stop window window') (hle : stop ≤ stop') :
    Asked stop' window window' :=
  ⟨h.floor_eq, h.step_eq, h.buffered_le, by have := h.buffered_lt; omega⟩

end Asked

/-! ## Asking for more -/

/-- One answered request, or one that fails, while a byte is missing. -/
theorem asked_refill {wanted : Nat} (missing : window.buffered < stop)
    {outcome : Except Fault Unit} (e : window.refill wanted = (outcome, window')) :
    Asked stop window window' := by
  unfold refill at e
  split at e
  · obtain ⟨-, rfl⟩ := Prod.mk.inj e
    exact ⟨rfl, rfl, le_rfl, Nat.lt_of_lt_of_le (Nat.lt_succ_self _) (le_max_left _ _)⟩
  · rename_i chunk source pulled
    obtain ⟨-, rfl⟩ := Prod.mk.inj e
    have size := Source.size_of_pull pulled
    have room : window.room wanted ≤ window.step := min_le_right _ _
    refine ⟨rfl, rfl, ?_, ?_⟩ <;> simp only [buffered, Array.size_append] at missing ⊢ <;> omega

/-- **Asking for a position asks for the bytes below it.** -/
theorem asked_ensure {outcome : Except Fault Bool} (e : window.ensure stop = (outcome, window')) :
    Asked stop window window' := by
  fun_induction Window.ensure window stop with
  | case1 | case4 =>
    obtain ⟨-, rfl⟩ := Prod.mk.inj e
    exact .refl _ _
  | case2 window missing more fault failed refilled =>
    obtain ⟨-, rfl⟩ := Prod.mk.inj e
    exact asked_refill missing refilled
  | case3 window missing more next refilled ih =>
    exact ((asked_refill missing refilled).trans (ih e)).mono (by omega)

/-- What is said to be available is. -/
theorem le_of_ensure (e : window.ensure stop = (.ok true, window')) : stop ≤ window'.buffered := by
  fun_induction Window.ensure window stop with
  | case1 | case2 => simp at e
  | case3 window missing more next refilled ih => exact ih e
  | case4 window enough =>
    obtain ⟨-, rfl⟩ := Prod.mk.inj e
    omega

/-! ## Looking and searching -/

theorem asked_byteAt {index : Nat} {outcome : Except Fault (Option UInt8)}
    (e : window.byteAt index = (outcome, window')) : Asked (index + 1) window window' := by
  unfold byteAt at e
  split at e
  · obtain ⟨-, rfl⟩ := Prod.mk.inj e
    exact .refl _ _
  · split at e
    all_goals
      rename_i ensured
      obtain ⟨-, rfl⟩ := Prod.mk.inj e
      exact asked_ensure ensured

theorem asked_range {start : Nat} {outcome : Except Fault Span}
    (e : window.range start stop = (outcome, window')) : Asked stop window window' := by
  unfold range at e
  split at e
  · obtain ⟨-, rfl⟩ := Prod.mk.inj e
    exact .refl _ _
  · split at e
    · obtain ⟨-, rfl⟩ := Prod.mk.inj e
      exact .refl _ _
    · split at e
      all_goals
        rename_i ensured
        obtain ⟨-, rfl⟩ := Prod.mk.inj e
        exact asked_ensure ensured

theorem asked_slice {start : Nat} {outcome : Except Fault Bytes}
    (e : window.slice start stop = (outcome, window')) : Asked stop window window' := by
  unfold slice at e
  split at e
  all_goals
    rename_i ranged
    obtain ⟨-, rfl⟩ := Prod.mk.inj e
    exact asked_range ranged

theorem asked_previewOnto {before shown : Bytes} {start count : Nat}
    (e : window.previewOnto before start count = (shown, window')) :
    Asked (start + count) window window' := by
  induction count generalizing window before start with
  | zero =>
    obtain ⟨-, rfl⟩ := Prod.mk.inj e
    exact .refl _ _
  | succ count ih =>
    rw [previewOnto] at e
    split at e
    case h_1 looked =>
      exact ((asked_byteAt looked).trans (ih e)).mono (by omega)
    case h_2 other looked =>
      obtain ⟨-, rfl⟩ := Prod.mk.inj e
      exact (asked_byteAt looked).mono (by omega)

/-- A search asks for whatever it takes. -/
theorem asked_search {find : Array UInt8 → Nat → Option Nat} {overlap start : Nat}
    {outcome : Except Fault (Option Nat)}
    (e : window.search find overlap start = (outcome, window')) :
    ∃ stop, Asked stop window window' := by
  fun_induction Window.search window find overlap start with
  | case1 window start index found =>
    obtain ⟨-, rfl⟩ := Prod.mk.inj e
    exact ⟨0, .refl _ _⟩
  | case2 window start nothing fault next ensured
  | case3 window start nothing next ensured =>
    obtain ⟨-, rfl⟩ := Prod.mk.inj e
    exact ⟨_, asked_ensure ensured⟩
  | case4 window start nothing next ensured ih =>
    obtain ⟨stop, further⟩ := ih e
    exact ⟨_, (asked_ensure ensured).trans further⟩

/-- After a byte is looked at the window shows the same input. -/
theorem Shows.of_byteAt {bytes : Array UInt8} (h : window.Shows bytes) {index : Nat}
    {outcome : Except Fault (Option UInt8)} (e : window.byteAt index = (outcome, window')) :
    window'.Shows bytes := by
  have next := (h.proceeds_byteAt index).shows
  rwa [e] at next

/-- After a piece is cut it does. -/
theorem Shows.of_slice {bytes : Array UInt8} (h : window.Shows bytes) {start : Nat}
    {outcome : Except Fault Bytes} (e : window.slice start stop = (outcome, window')) :
    window'.Shows bytes := by
  have next := (h.proceeds_slice start stop).shows
  rwa [e] at next

/-- After a preview it does. -/
theorem Shows.of_previewOnto {bytes : Array UInt8} (h : window.Shows bytes)
    {before shown : Bytes} {start count : Nat}
    (e : window.previewOnto before start count = (shown, window')) : window'.Shows bytes := by
  induction count generalizing window before start with
  | zero =>
    obtain ⟨-, rfl⟩ := Prod.mk.inj e
    exact h
  | succ count ih =>
    rw [Window.previewOnto] at e
    split at e
    case h_1 looked => exact ih (h.of_byteAt looked) e
    case h_2 other looked =>
      obtain ⟨-, rfl⟩ := Prod.mk.inj e
      exact h.of_byteAt looked

/-- After a search it does. -/
theorem Shows.of_search {bytes : Array UInt8} (h : window.Shows bytes)
    {find : Array UInt8 → Nat → Option Nat} {overlap start : Nat}
    {outcome : Except Fault (Option Nat)}
    (e : window.search find overlap start = (outcome, window')) : window'.Shows bytes := by
  fun_induction Window.search window find overlap start with
  | case1 window start index found =>
    obtain ⟨-, rfl⟩ := Prod.mk.inj e
    exact h
  | case2 window start nothing fault next ensured
  | case3 window start nothing next ensured =>
    obtain ⟨-, rfl⟩ := Prod.mk.inj e
    exact (h.ensure ensured).1.shows
  | case4 window start nothing next ensured ih => exact ih (h.ensure ensured).1.shows e

/-- **A search that finds something finds the first place in the input**, and asks
for no byte behind it – also if the source is not honest about its end. -/
theorem Shows.search_found {bytes : Array UInt8} (h : window.Shows bytes)
    {find : Array UInt8 → Nat → Option Nat} {spot : Bytes → Prop} {width start index : Nat}
    (locates : Locates find spot width) (hfloor : window.floor ≤ start)
    (e : window.search find (width - 1) start = (.ok (some index), window')) :
    IsFirst spot bytes.toList start index ∧ Asked (index + width) window window' := by
  fun_induction Window.search window find (width - 1) start with
  | case1 window start place found =>
    obtain ⟨⟨⟩, rfl⟩ := Prod.mk.inj e
    split at found
    case isFalse => simp at found
    case isTrue =>
      have here := h.find_held locates hfloor found
      exact ⟨(locates.find_eq_some_iff _ _ _).1 here, .refl _ _⟩
  | case2 | case3 => simp at e
  | case4 window start nothing next ensured ih =>
    simp only [dite_eq_ite] at ih
    obtain ⟨reaches, -⟩ := h.ensure ensured
    have asked := asked_ensure ensured
    have later : start ≤ if start < window.buffered then max start (window.buffered - (width - 1))
        else start := by
      split <;> omega
    obtain ⟨first, further⟩ :=
      ih reaches.shows (reaches.floor_eq.trans_le (hfloor.trans later)) e
    have width_pos := locates.width_pos
    -- what the next round does not look at was seen in full by this one
    have whole : IsFirst spot bytes.toList start index :=
      first.of_later later fun before hle hlt =>
        h.not_spot locates hfloor nothing hle (by split at hlt <;> omega)
    -- and what it finds was not
    have behind : window.buffered < index + width := by
      by_contra seen
      exact h.not_spot locates hfloor nothing whole.le (by omega) whole.holds
    exact ⟨whole, (asked.trans further).mono (by omega)⟩

/-! ## Releasing -/

/-- **Releasing what is below an available position** leaves a step of it at
most. -/
theorem discardBefore_near {position : Nat} (enough : position ≤ window.buffered)
    (hfloor : window.floor ≤ position) :
    ∃ window', window.discardBefore position = (.ok (), window')
      ∧ window'.floor ≤ position ∧ position ≤ window'.floor + window'.step
      ∧ window'.step = window.step := by
  unfold discardBefore
  rw [ensure_of_le enough]
  dsimp only
  split
  case isTrue near => exact ⟨window, rfl, hfloor, near, rfl⟩
  case isFalse far =>
    refine ⟨_, rfl, min_le_left _ _, ?_, rfl⟩
    show position ≤ min position window.buffered + window.step
    omega

/-- It moves the lower end of the window only. -/
theorem Shows.released {bytes : Array UInt8} (h : window.Shows bytes) {position : Nat}
    (enough : position ≤ window.buffered) (hfloor : window.floor ≤ position)
    (e : window.discardBefore position = (.ok (), window')) :
    window'.Shows bytes ∧ window'.buffered = window.buffered := by
  obtain ⟨_, discarded, shows, source_eq, -, -⟩ := h.discardBefore enough hfloor
  rw [e] at discarded
  obtain ⟨-, rfl⟩ := Prod.mk.inj discarded
  exact ⟨shows, by rw [shows.buffered_eq, source_eq, ← h.buffered_eq]⟩

end Window

/-! ## The cursor -/

namespace Streaming

/-- **The window begins at most a step behind the cursor**, and not in front of
it. -/
structure Near (step : Nat) (stream : Streaming) : Prop where
  step_eq : stream.window.step = step
  floor_le : stream.window.floor ≤ stream.position
  le_floor_add : stream.position ≤ stream.window.floor + step

variable {stream stream' : Streaming} {step stop : Nat}

/-- At the first position that a window has. -/
theorem Near.ofWindow (window : Window) : (ofWindow window).Near window.step :=
  ⟨rfl, le_rfl, Nat.le_add_right _ _⟩

/-- Asking the source moves neither of them. -/
theorem Near.withWindow (h : stream.Near step) {window : Window}
    (asked : stream.window.Asked stop window) : (stream.withWindow window).Near step where
  step_eq := asked.step_eq.trans h.step_eq
  floor_le := asked.floor_eq.trans_le h.floor_le
  le_floor_add := h.le_floor_add.trans_eq (by rw [← asked.floor_eq]; rfl)

/-- Standing at an available position releases what is before it. -/
theorem Near.ofReleased {window : Window} {position : Nat} (hstep : window.step = step)
    (enough : position ≤ window.buffered) (hfloor : window.floor ≤ position) :
    Near step { window := (window.discardBefore position).2, position } := by
  obtain ⟨window', discarded, floor_le, le_floor_add, step_eq⟩ :=
    Window.discardBefore_near enough hfloor
  rw [discarded]
  rw [step_eq, hstep] at le_floor_add
  exact ⟨step_eq.trans hstep, floor_le, le_floor_add⟩

theorem Near.advance (h : stream.Near step) (count : Nat) :
    (stream.advance count).2.Near step := by
  unfold Streaming.advance
  dsimp only
  split
  · rename_i ensured
    exact h.withWindow (Window.asked_ensure ensured)
  · rename_i ensured
    exact h.withWindow (Window.asked_ensure ensured)
  · rename_i window ensured
    have asked := Window.asked_ensure ensured
    have passed : window.floor ≤ stream.position + count :=
      asked.floor_eq.trans_le (h.floor_le.trans (Nat.le_add_right _ _))
    exact .ofReleased (asked.step_eq.trans h.step_eq) (Window.le_of_ensure ensured) passed

theorem Near.skipHeld (h : stream.Near step) : stream.skipHeld.2.Near step := by
  unfold Streaming.skipHeld
  split
  · exact .ofReleased h.step_eq le_rfl (Nat.le_add_right _ _)
  · exact h

theorem Near.skipRest (h : stream.Near step) : stream.skipRest.2.Near step := by
  -- each round skips what is held and asks for more
  fun_induction Streaming.skipRest stream with
  | case1 stream fault next skipped =>
    have held := h.skipHeld
    rw [skipped] at held
    exact held
  | case2 stream next skipped fault window ensured | case3 stream next skipped window ensured =>
    have held := h.skipHeld
    rw [skipped] at held
    exact held.withWindow (Window.asked_ensure ensured)
  | case4 stream next skipped window ensured ih =>
    have held := h.skipHeld
    rw [skipped] at held
    exact ih (held.withWindow (Window.asked_ensure ensured))

/-- **Whatever a cursor is asked, its window stays near**, also when the source
fails. -/
theorem Near.answer (h : stream.Near step) (query : Query) :
    (stream.answer query).2.Near step := by
  cases query with
  | peek offset => exact h.withWindow (Window.asked_byteAt rfl)
  | advance count => exact h.advance count
  | slice start stop => exact h.withWindow (Window.asked_slice rfl)
  | find needle start | findEither a b start =>
    obtain ⟨stop, asked⟩ : ∃ stop, stream.window.Asked stop _ := Window.asked_search rfl
    exact h.withWindow asked
  | skipRest => exact h.skipRest
  | preview count => exact h.withWindow (Window.asked_previewOnto rfl)

end Streaming

end TableDump
