import Mathlib
import TableDump.Cursor.InMemory
import TableDump.Proofs.Lookahead
import TableDump.Proofs.Scan
import TableDump.Token.Scan

/-!
# The footing of a cursor

What a cursor answers, if it answers at all, is true of the input, and it has
looked no further into the input than the answer needed. `Footing` is that law,
for any kind of cursor: at each moment the cursor has a *place* in the input and
a *reach*, the number of bytes behind the place that may have been looked at,
not counting the last, and every question says what becomes of the two.

Only answers count. A question that fails ends the reading, and nothing is said
of it. So the law holds of a cursor over any source, also one that fails or is
not honest about its end, and what follows from it follows for all of them
(`Scan.Arrives`).
-/

namespace TableDump

variable {α β κ : Type}

/-! ## What an answer says -/

/-- **What an answer tells of the input**, when the cursor is at `place` with
`reach`, and where the cursor is then. Where nothing is found, nothing has to be
said of the reach of a search. -/
def Query.Tells (bytes : Array UInt8) (place reach : Nat) :
    (query : Query) → query.Answer → (place' reach' : Nat) → Prop
  | .peek offset, answer, place', reach' =>
    place' = place ∧ match answer with
      | some byte => reach' ≤ max reach offset ∧ bytes[place + offset]? = some byte
      | none => reach' ≤ offset
  | .advance count, _, place', reach' => place' = place + count ∧ reach' ≤ reach - count
  | .slice start stop, answer, place', reach' =>
    place' = place ∧ reach' ≤ max reach stop
      ∧ answer = (bytes.toList.take (place + stop)).drop (place + start)
  | .find needle start, answer, place', reach' =>
    place' = place ∧ ∀ index, answer = some index →
      reach' ≤ max reach (index + (needle.length - 1))
        ∧ IsFirst (needle <+: ·) bytes.toList (place + start) (place + index)
  | .findEither _ _ start, answer, place', reach' =>
    place' = place ∧ ∀ index, answer = some index → reach' ≤ max reach index ∧ start ≤ index
  | .skipRest, _, place', reach' => place ≤ place' ∧ reach' = 0
  | .preview _, _, place', _ => place' = place

/-! ## What a reading comes to -/

/-- **What a reading comes to, if it succeeds**: from any cursor that `stands` at
`place` with `reach`, to a cursor at a place and with a reach that are as `post`
says of the value. -/
def Scan.Arrives [Cursor κ] (stands : (place reach : Nat) → κ → Prop) (place reach : Nat)
    (scan : Scan α) (post : α → (place' reach' : Nat) → Prop) : Prop :=
  ∀ (cursor cursor' : κ) (value : α), stands place reach cursor →
    scan.run cursor = (.ok value, cursor') →
    ∃ place' reach', stands place' reach' cursor' ∧ post value place' reach'

/-- **A relation between cursors and places of an input** that answers keep. -/
structure Footing [Cursor κ] (bytes : Array UInt8) (stands : (place reach : Nat) → κ → Prop) :
    Prop where
  /-- The place is one of the input. -/
  place_le : ∀ {place reach cursor}, stands place reach cursor → place ≤ bytes.size
  /-- The cursor knows how much is in front of it. -/
  left_eq : ∀ {place reach cursor}, stands place reach cursor →
    Cursor.left cursor = bytes.size - place
  /-- Answers are true. -/
  answer : ∀ (query : Query), query.Sensible → ∀ place reach,
    (Scan.ask query Scan.done).Arrives stands place reach (query.Tells bytes place reach)

namespace Scan.Arrives

variable [Cursor κ] {stands : (place reach : Nat) → κ → Prop} {place reach : Nat}

/-- What is known of what a reading comes to is known of less. -/
theorem mono {scan : Scan α} {post post' : α → Nat → Nat → Prop}
    (h : scan.Arrives stands place reach post)
    (imp : ∀ value place' reach', post value place' reach' → post' value place' reach') :
    scan.Arrives stands place reach post' := by
  intro cursor cursor' value standing ran
  obtain ⟨place', reach', standing', holds⟩ := h cursor cursor' value standing ran
  exact ⟨place', reach', standing', imp value place' reach' holds⟩

/-- A reading that needs no bytes stays where it is. -/
theorem pure {value : α} {post : α → Nat → Nat → Prop} (h : post value place reach) :
    (Pure.pure value : Scan α).Arrives stands place reach post := by
  intro cursor cursor' value' standing ran
  rw [run_pure] at ran
  obtain ⟨⟨⟩, rfl⟩ := Prod.mk.inj ran
  exact ⟨place, reach, standing, h⟩

/-- **A sequence comes to what its parts come to.** -/
theorem bind {first : Scan α} {next : α → Scan β} {between : α → Nat → Nat → Prop}
    {post : β → Nat → Nat → Prop} (hfirst : first.Arrives stands place reach between)
    (hnext : ∀ value place' reach', between value place' reach' →
      (next value).Arrives stands place' reach' post) :
    (first >>= next).Arrives stands place reach post := by
  intro cursor cursor' value standing ran
  obtain ⟨mid, cursor'', ran', ran''⟩ := ok_of_run_bind ran
  obtain ⟨place', reach', standing', holds⟩ := hfirst _ _ _ standing ran'
  exact hnext mid place' reach' holds _ _ _ standing' ran''

/-- Where reading cannot go on it does not succeed. -/
theorem malformed (settings : Settings) (cause : Malformation) (post : α → Nat → Nat → Prop) :
    (settings.malformed cause : Scan α).Arrives stands place reach post := by
  intro cursor cursor' value standing ran
  obtain ⟨_, _, -, ran⟩ := ok_of_run_bind ran
  obtain ⟨_, _, -, ran⟩ := ok_of_run_bind ran
  simp at ran

theorem unexpected (settings : Settings) (byte : UInt8) (post : α → Nat → Nat → Prop) :
    (settings.unexpected byte : Scan α).Arrives stands place reach post := by
  intro cursor cursor' value standing ran
  obtain ⟨_, _, -, ran⟩ := ok_of_run_bind ran
  obtain ⟨_, _, -, ran⟩ := ok_of_run_bind ran
  simp at ran

end Scan.Arrives

/-! ## In memory -/

namespace InMemory

/-- **The cursor stands at a place of the input.** In memory nothing is gained by
not looking far. -/
structure Stands (bytes : Array UInt8) (place : Nat) (_reach : Nat) (memory : InMemory) : Prop where
  bytes_eq : memory.bytes = bytes
  position_eq : memory.position = place
  place_le : place ≤ bytes.size

variable {bytes : Array UInt8} {place reach : Nat} {memory memory' : InMemory}

/-- Found at an offset is found at a place. -/
theorem exists_of_offset? {found? : Option Nat} {index : Nat}
    (h : memory.offset? found? = some index) :
    ∃ found, found? = some found ∧ index = found - memory.position := by
  unfold offset? at h
  obtain ⟨found, eq, rfl⟩ := Option.map_eq_some_iff.1 h
  exact ⟨found, eq, rfl⟩

/-- **A cursor in memory tells the truth.** -/
theorem footing (bytes : Array UInt8) : Footing bytes (Stands bytes) where
  place_le h := h.place_le
  left_eq h := by
    show remaining _ = _
    rw [remaining, h.bytes_eq, h.position_eq]
  answer query sensible place reach memory memory' answer standing ran := by
    obtain ⟨rfl, rfl, inside⟩ := standing
    rw [Scan.run_ask] at ran
    change memory.answer query = _ at ran
    cases query with
    | peek offset =>
      obtain ⟨⟨⟩, rfl⟩ := Prod.mk.inj ran
      refine ⟨memory.position, 0, ⟨rfl, rfl, inside⟩, rfl, ?_⟩
      split
      · exact ⟨Nat.zero_le _, ‹_›⟩
      · exact Nat.zero_le _
    | advance count =>
      rw [InMemory.answer] at ran
      split at ran
      case isTrue enough =>
        obtain ⟨-, rfl⟩ := Prod.mk.inj ran
        rw [remaining] at enough
        exact ⟨memory.position + count, 0, ⟨rfl, rfl, by omega⟩, rfl, Nat.zero_le _⟩
      case isFalse => simp at ran
    | slice start stop =>
      rw [InMemory.answer] at ran
      split at ran
      case isTrue =>
        obtain ⟨⟨⟩, rfl⟩ := Prod.mk.inj ran
        refine ⟨memory.position, 0, ⟨rfl, rfl, inside⟩, rfl, Nat.zero_le _, ?_⟩
        rw [Array.toList_extract, List.extract_eq_take_drop, List.drop_take]
      case isFalse => simp at ran
    | find needle start =>
      obtain ⟨⟨⟩, rfl⟩ := Prod.mk.inj ran
      refine ⟨memory.position, 0, ⟨rfl, rfl, inside⟩, rfl, fun index found => ?_⟩
      obtain ⟨place, eq, rfl⟩ := exists_of_offset? found
      have first := ((locates_findBytes sensible).find_eq_some_iff _ _ _).1 eq
      have := first.le
      rw [Nat.add_sub_of_le (by omega)]
      exact ⟨Nat.zero_le _, first⟩
    | findEither a b start =>
      obtain ⟨⟨⟩, rfl⟩ := Prod.mk.inj ran
      refine ⟨memory.position, 0, ⟨rfl, rfl, inside⟩, rfl, fun index found => ?_⟩
      obtain ⟨place, eq, rfl⟩ := exists_of_offset? found
      have := (((locates_findEither a b).find_eq_some_iff _ _ _).1 eq).le
      exact ⟨Nat.zero_le _, by omega⟩
    | skipRest =>
      obtain ⟨-, rfl⟩ := Prod.mk.inj ran
      exact ⟨memory.bytes.size, 0, ⟨rfl, rfl, le_rfl⟩, inside, rfl⟩
    | preview count =>
      obtain ⟨-, rfl⟩ := Prod.mk.inj ran
      exact ⟨memory.position, 0, ⟨rfl, rfl, inside⟩, rfl⟩

end InMemory

/-! ## Over a source -/

namespace Streaming

/-- **The cursor stands at a place of the input**, in a window that begins at most
a step behind it and ends at most a step behind its reach. -/
structure Stands (bytes : Array UInt8) (step place reach : Nat) (stream : Streaming) : Prop where
  shows : stream.window.Shows bytes
  near : stream.Near step
  position_eq : stream.position = place
  /-- All before the place has been given out. -/
  place_le : place ≤ stream.window.buffered
  buffered_le : stream.window.buffered ≤ place + reach + step

variable {bytes : Array UInt8} {step place reach stop : Nat} {stream stream' : Streaming}

namespace Stands

/-- The place has not been released. -/
theorem floor_le (h : stream.Stands bytes step place reach) : stream.window.floor ≤ place :=
  h.position_eq ▸ h.near.floor_le

/-- At the start of a source. -/
theorem ofSource (bytes : Array UInt8) (script : List Reply) (sizing : Window.Sizing) :
    (Streaming.ofSource { bytes, script } sizing).Stands bytes (max sizing.step 1) 0 0 where
  shows := .ofSource script sizing
  near := .ofWindow (Window.ofSource { bytes, script } sizing)
  position_eq := rfl
  place_le := Nat.zero_le _
  buffered_le := Nat.zero_le _

/-- **Asking the source** for the bytes below `place + reach' + 1` reaches as
far. -/
theorem withWindow (h : stream.Stands bytes step place reach) {window : Window} (reach' : Nat)
    (shows : window.Shows bytes) (asked : stream.window.Asked stop window)
    (hstop : stop ≤ place + reach' + 1) :
    (stream.withWindow window).Stands bytes step place (max reach reach') where
  shows := shows
  near := h.near.withWindow asked
  position_eq := h.position_eq
  place_le := h.place_le.trans asked.buffered_le
  buffered_le := by
    have before := h.buffered_le
    have gained := asked.buffered_lt
    rw [h.near.step_eq] at gained
    show window.buffered ≤ _
    omega

theorem peek (h : stream.Stands bytes step place reach) {offset : Nat} {found : Option UInt8}
    (ran : stream.answer (.peek offset) = (.ok found, stream')) :
    ∃ place' reach', stream'.Stands bytes step place' reach'
      ∧ (Query.peek offset).Tells bytes place reach found place' reach' := by
  rw [answer, h.position_eq] at ran
  rcases looked : stream.window.byteAt (place + offset) with ⟨outcome, window⟩
  rw [looked] at ran
  obtain ⟨rfl, rfl⟩ := Prod.mk.inj ran
  have shows := h.shows.of_byteAt looked
  have moved : (stream.withWindow window).Stands bytes step place (max reach offset) :=
    h.withWindow offset shows (Window.asked_byteAt looked) (by omega)
  rcases h.shows.looked (h.floor_le.trans (Nat.le_add_right _ _)) looked
    with ⟨error, eq⟩ | ⟨byte, eq, there⟩ | ⟨eq, -, ended⟩
  · simp at eq
  · obtain rfl := Except.ok.inj eq
    refine ⟨place, _, moved, rfl, le_rfl, ?_⟩
    obtain ⟨rest, whole⟩ := shows.delivered_prefix
    rw [← Array.getElem?_toList, ← whole,
      List.getElem?_append_left (List.getElem?_eq_some_iff.1 there).1, there]
  · obtain rfl := Except.ok.inj eq
    refine ⟨place, offset, ⟨shows, moved.near, moved.position_eq, moved.place_le, ?_⟩, rfl, le_rfl⟩
    rw [shows.length_delivered] at ended
    show window.buffered ≤ _
    omega

theorem slice (h : stream.Stands bytes step place reach) {start stop : Nat} {piece : Bytes}
    (ran : stream.answer (.slice start stop) = (.ok piece, stream')) :
    ∃ place' reach', stream'.Stands bytes step place' reach'
      ∧ (Query.slice start stop).Tells bytes place reach piece place' reach' := by
  rw [answer, h.position_eq] at ran
  rcases cut : stream.window.slice (place + start) (place + stop) with ⟨outcome, window⟩
  rw [cut] at ran
  obtain ⟨rfl, rfl⟩ := Prod.mk.inj ran
  have shows := h.shows.of_slice cut
  refine ⟨place, _, h.withWindow _ shows (Window.asked_slice cut) (Nat.le_succ _), rfl, le_rfl, ?_⟩
  cases h.shows.sliced cut with
  | available _ _ enough =>
    obtain ⟨rest, whole⟩ := shows.delivered_prefix
    rw [← whole, List.take_append_of_le_length enough]

/-- A search in the window finds the first place in the input. -/
theorem search (h : stream.Stands bytes step place reach) {find : Array UInt8 → Nat → Option Nat}
    {spot : Bytes → Prop} {width start : Nat} (locates : Locates find spot width)
    {found : Option Nat} (ran : stream.search find (width - 1) start = (.ok found, stream')) :
    ∃ reach', stream'.Stands bytes step place reach' ∧ ∀ index, found = some index →
      reach' ≤ max reach (index + (width - 1))
        ∧ IsFirst spot bytes.toList (place + start) (place + index) := by
  rw [Streaming.search, h.position_eq] at ran
  rcases searched : stream.window.search find (width - 1) (place + start) with ⟨outcome, window⟩
  rw [searched] at ran
  obtain ⟨eq, rfl⟩ := Prod.mk.inj ran
  have shows := h.shows.of_search searched
  have width_pos := locates.width_pos
  rcases outcome with fault | _ | index
  · simp [Except.map] at eq
  · obtain rfl : none = found := Except.ok.inj eq
    obtain ⟨stop, asked⟩ := Window.asked_search searched
    refine ⟨_, h.withWindow stop shows asked (by omega), fun index absurd => ?_⟩
    simp at absurd
  · obtain rfl : some (index - place) = found := Except.ok.inj eq
    obtain ⟨first, asked⟩ :=
      h.shows.search_found locates (h.floor_le.trans (Nat.le_add_right _ _)) searched
    have := first.le
    refine ⟨_, h.withWindow (index - place + (width - 1)) shows asked (by omega), ?_⟩
    rintro _ ⟨⟩
    rw [Nat.add_sub_of_le (by omega)]
    exact ⟨le_rfl, first⟩

/-- Standing at an available place releases what is before it. -/
theorem ofReleased {window window' : Window} (shows : window.Shows bytes)
    (enough : place ≤ window.buffered) (hfloor : window.floor ≤ place)
    (hstep : window.step = step) (hbuffered : window.buffered ≤ place + reach + step)
    (e : window.discardBefore place = (.ok (), window')) :
    Stands bytes step place reach { window := window', position := place } := by
  have near := Near.ofReleased hstep enough hfloor
  rw [e] at near
  obtain ⟨shows', buffered_eq⟩ := shows.released enough hfloor e
  exact ⟨shows', near, rfl, enough.trans buffered_eq.ge, buffered_eq.trans_le hbuffered⟩

theorem advance (h : stream.Stands bytes step place reach) {count : Nat}
    (ran : stream.answer (.advance count) = (.ok (), stream')) :
    stream'.Stands bytes step (place + count) (reach - count) := by
  rw [answer, Streaming.advance, h.position_eq] at ran
  dsimp only at ran
  split at ran
  · simp at ran
  · simp at ran
  · rename_i window ensured
    have moved : (stream.withWindow window).Stands bytes step place (max reach (count - 1)) :=
      h.withWindow (count - 1) (h.shows.ensure ensured).1.shows (Window.asked_ensure ensured)
        (by omega)
    obtain ⟨discarded, rfl⟩ := Prod.mk.inj ran
    refine ofReleased moved.shows (Window.le_of_ensure ensured)
      (moved.floor_le.trans (Nat.le_add_right _ _)) moved.near.step_eq ?_ (Prod.ext discarded rfl)
    have := moved.buffered_le
    omega

/-- Going to the end of what is held. -/
theorem skipHeld (h : stream.Stands bytes step place reach)
    (ran : stream.skipHeld = (.ok (), stream')) :
    stream'.Stands bytes step stream.window.buffered 0
      ∧ stream'.window.buffered = stream.window.buffered := by
  unfold Streaming.skipHeld at ran
  split at ran
  · obtain ⟨discarded, rfl⟩ := Prod.mk.inj ran
    have released : stream.window.discardBefore stream.window.buffered = (.ok (), _) :=
      Prod.ext discarded rfl
    exact ⟨ofReleased h.shows le_rfl (Nat.le_add_right _ _) h.near.step_eq (Nat.le_add_right _ _)
        released,
      (h.shows.released le_rfl (Nat.le_add_right _ _) released).2⟩
  · rename_i there
    obtain ⟨-, rfl⟩ := Prod.mk.inj ran
    have := h.position_eq
    have := h.place_le
    exact ⟨⟨h.shows, h.near, by omega, le_rfl, Nat.le_add_right _ _⟩, rfl⟩

/-- Skipping comes to the end of what there is. -/
theorem skipRest (h : stream.Stands bytes step place reach)
    (ran : stream.skipRest = (.ok (), stream')) :
    ∃ place', stream'.Stands bytes step place' 0 ∧ place ≤ place' := by
  fun_induction Streaming.skipRest stream generalizing place reach with
  | case1 | case2 => simp at ran
  | case3 stream next skipped window ensured =>
    obtain ⟨-, rfl⟩ := Prod.mk.inj ran
    obtain ⟨held, buffered_eq⟩ := h.skipHeld skipped
    have moved := held.withWindow 0 (held.shows.ensure ensured).1.shows
      (Window.asked_ensure ensured) (by omega)
    exact ⟨stream.window.buffered, moved, h.place_le⟩
  | case4 stream next skipped window ensured ih =>
    obtain ⟨held, buffered_eq⟩ := h.skipHeld skipped
    have moved := held.withWindow 0 (held.shows.ensure ensured).1.shows
      (Window.asked_ensure ensured) (by omega)
    obtain ⟨place', there, further⟩ := ih moved ran
    exact ⟨place', there, h.place_le.trans further⟩

end Stands

/-- **A cursor over a source tells the truth when it answers**, whatever its source
is like. -/
theorem footing (bytes : Array UInt8) (step : Nat) : Footing bytes (Stands bytes step) where
  place_le h := h.place_le.trans (h.shows.buffered_eq.trans_le h.shows.given_le)
  left_eq h := by
    have := h.shows.given_le
    show left _ = _
    rw [left, Source.left, h.shows.buffered_eq, h.shows.bytes_eq, h.position_eq]
    omega
  answer query sensible place reach stream stream' answer standing ran := by
    rw [Scan.run_ask] at ran
    change stream.answer query = _ at ran
    cases query with
    | peek offset => exact standing.peek ran
    | advance count => exact ⟨_, _, standing.advance ran, rfl, le_rfl⟩
    | slice start stop => exact standing.slice ran
    | find needle start =>
      obtain ⟨reach', there, found⟩ := standing.search (locates_findBytes sensible) ran
      exact ⟨place, reach', there, rfl, found⟩
    | findEither a b start =>
      obtain ⟨reach', there, found⟩ := standing.search (locates_findEither a b) ran
      refine ⟨place, reach', there, rfl, fun index eq => ?_⟩
      obtain ⟨le, first⟩ := found index eq
      exact ⟨le, Nat.le_of_add_le_add_left first.le⟩
    | skipRest =>
      obtain ⟨place', there, further⟩ := standing.skipRest ran
      exact ⟨place', 0, there, further, rfl⟩
    | preview count =>
      obtain ⟨-, rfl⟩ := Prod.mk.inj ran
      exact ⟨place, _, standing.withWindow (stream.position + count)
        (standing.shows.of_previewOnto rfl) (Window.asked_previewOnto rfl) (by omega), rfl⟩

end Streaming

end TableDump
