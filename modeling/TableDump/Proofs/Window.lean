import Mathlib
import TableDump.Proofs.Failures
import TableDump.Proofs.Search
import TableDump.Proofs.Source
import TableDump.Window

/-!
# What a window shows

A window over some input shows the input from its floor to as far as the source
has given it out (`Window.Shows`). This is the one invariant of all operations,
and everything that a window answers follows from it.

Asking the source may happen any number of times within one operation. What it
does to the window is the same each time, and is said once: the window reaches
further (`Window.Reaches`). An operation that does not release anything
composes such steps, so it too leaves a window over the same input with the
same floor.

An answer that nothing more can be had is the end of the input only if the
source is honest about its end, which is why `Window.Truthful` is an invariant
of its own. Over a truthful window every operation has the outcome that the
whole input would give, unless the source fails (`Source.Yields`).
-/

namespace TableDump

namespace Window

/-- **The window shows `bytes` from its floor on**, as far as they have been
given out. -/
structure Shows (bytes : Array UInt8) (window : Window) : Prop where
  /-- They are the bytes of the source. -/
  bytes_eq : window.source.bytes = bytes
  /-- What has been given out are some of them. -/
  given_le : window.source.given ≤ bytes.size
  /-- What has been released had been given out. -/
  floor_le : window.floor ≤ window.source.given
  /-- What is held is what was given out and not released. -/
  held_eq : window.held = bytes.extract window.floor window.source.given
  /-- A request asks for something. -/
  step_pos : 0 < window.step

/-- **A window that does not invent an end**: its source is honest, and if it
counts as exhausted then all has been given out. -/
structure Truthful (window : Window) : Prop where
  honest : window.source.Honest
  given_eq : window.exhausted = true → window.source.given = window.source.bytes.size

/-- **What asking the source does**, however often it is asked. -/
structure Reaches (bytes : Array UInt8) (window window' : Window) : Prop where
  shows : window'.Shows bytes
  /-- Nothing is released. -/
  floor_eq : window'.floor = window.floor
  step_eq : window'.step = window.step
  given_le : window.source.given ≤ window'.source.given
  truthful : window.Truthful → window'.Truthful
  reliable : window.source.Reliable → window'.source.Reliable

variable {bytes : Array UInt8} {window window' window'' : Window}

namespace Shows

/-- What is buffered is what was given out. -/
theorem buffered_eq (h : window.Shows bytes) : window.buffered = window.source.given := by
  have := h.given_le
  have := h.floor_le
  rw [buffered, h.held_eq, Array.size_extract]
  omega

/-- The window in terms of the input: the byte at a position. -/
theorem held_getElem? (h : window.Shows bytes) {index : Nat} (hfloor : window.floor ≤ index)
    (hbuffered : index < window.buffered) : window.held[index - window.floor]? = bytes[index]? := by
  have := h.given_le
  rw [h.buffered_eq] at hbuffered
  rw [h.held_eq, Array.getElem?_extract, if_pos (by omega)]
  congr 1
  omega

/-- The window in terms of the input: the bytes of a range. -/
theorem between_eq (h : window.Shows bytes) {start stop : Nat} (hfloor : window.floor ≤ start)
    (hle : start ≤ stop) (hbuffered : stop ≤ window.buffered) :
    window.between start stop = (bytes.extract start stop).toList := by
  rw [h.buffered_eq] at hbuffered
  rw [between, h.held_eq, Array.extract_extract]
  congr 2 <;> omega

/-- The window in terms of the input: all that is shown from a position on. -/
theorem drop_held (h : window.Shows bytes) {start : Nat} (hfloor : window.floor ≤ start) :
    window.held.toList.drop (start - window.floor)
      = (bytes.toList.take window.source.given).drop start := by
  rw [h.held_eq, Array.toList_extract, List.extract_eq_take_drop, ← List.drop_take, List.drop_drop]
  congr 1
  omega

/-- A window at the start of a source shows nothing yet. -/
theorem ofSource (script : List Reply) (sizing : Sizing) :
    (Window.ofSource { bytes, script } sizing).Shows bytes where
  bytes_eq := rfl
  given_le := Nat.zero_le _
  floor_le := le_rfl
  held_eq := by simp [Window.ofSource]
  step_pos := by simp [Window.ofSource]

end Shows

namespace Reaches

/-- Not asking at all. -/
theorem refl (h : window.Shows bytes) : window.Reaches bytes window :=
  ⟨h, rfl, rfl, le_rfl, id, id⟩

/-- Asking again. -/
theorem trans (h : window.Reaches bytes window') (h' : window'.Reaches bytes window'') :
    window.Reaches bytes window'' where
  shows := h'.shows
  floor_eq := h'.floor_eq.trans h.floor_eq
  step_eq := h'.step_eq.trans h.step_eq
  given_le := h.given_le.trans h'.given_le
  truthful := h'.truthful ∘ h.truthful
  reliable := h'.reliable ∘ h.reliable

/-- What was buffered stays so. -/
theorem buffered_le (h : window.Reaches bytes window') (hshows : window.Shows bytes) :
    window.buffered ≤ window'.buffered := by
  rw [hshows.buffered_eq, h.shows.buffered_eq]
  exact h.given_le

end Reaches

/-! ## Asking for more -/

/-- **A request leaves room for a byte**, when one is wanted. -/
theorem room_pos {wanted : Nat} (hstep : 0 < window.step) (hwanted : 0 < wanted) :
    0 < window.room wanted := by
  unfold room grownCapacity
  split <;> omega

/-- **One answered request reaches further**, and if it fails the source is not
reliable. -/
theorem Shows.refill (h : window.Shows bytes) {wanted : Nat} (hwanted : 0 < wanted)
    {outcome : Except Fault Unit} (e : window.refill wanted = (outcome, window')) :
    window.Reaches bytes window' ∧ window.source.Yields (.ok ()) outcome := by
  have hgiven : window.source.given ≤ window.source.bytes.size := h.bytes_eq ▸ h.given_le
  have room := room_pos h.step_pos hwanted
  unfold Window.refill at e
  split at e
  · rename_i error source pulled
    obtain ⟨rfl, rfl⟩ := Prod.mk.inj e
    obtain ⟨bytes_eq, given_eq, kind, failure⟩ := Source.fail_of_pull pulled
    refine ⟨⟨⟨bytes_eq.trans h.bytes_eq, ?_, ?_, ?_, h.step_pos⟩, rfl, rfl, given_eq.ge, ?_, ?_⟩,
      .inr ⟨fun reliable => kind (reliable _ failure), error, rfl⟩⟩
    · exact given_eq.trans_le h.given_le
    · exact given_eq.symm ▸ h.floor_le
    · exact given_eq.symm ▸ h.held_eq
    · intro truthful
      refine ⟨truthful.honest.of_pull_error pulled, fun exhausted => ?_⟩
      have := truthful.given_eq exhausted
      simp only [given_eq, bytes_eq, this]
    · exact fun reliable => reliable.of_pull pulled
  · rename_i chunk source pulled
    obtain ⟨rfl, rfl⟩ := Prod.mk.inj e
    have gave := Source.gave_of_pull hgiven pulled
    refine ⟨⟨⟨gave.bytes_eq.trans h.bytes_eq, ?_, ?_, ?_, h.step_pos⟩, rfl, rfl, gave.given_le,
      ?_, ?_⟩, .inl rfl⟩
    · exact h.bytes_eq ▸ gave.given_le_size
    · exact h.floor_le.trans gave.given_le
    · have before := h.floor_le
      have after := gave.given_le
      simp only [h.held_eq, gave.chunk_eq, h.bytes_eq, Array.extract_append_extract]
      congr 1 <;> omega
    · intro truthful
      have honest := truthful.honest.of_pull hgiven room pulled
      refine ⟨honest.1, fun exhausted => ?_⟩
      have ended := honest.2 (by simpa using exhausted)
      have := gave.given_le
      have := gave.given_le_size
      rw [Source.left] at ended
      simp only [gave.bytes_eq]
      omega
    · exact fun reliable => reliable.of_pull pulled

/-- **How asking for a position ends.** -/
inductive Ensured (window : Window) (position : Nat) : Except Fault Bool → Window → Prop
  /-- It is available. -/
  | available {window' : Window} : position ≤ window'.buffered →
      Ensured window position (.ok true) window'
  /-- There is no more. -/
  | ended {window' : Window} : window'.buffered < position → window'.exhausted = true →
      Ensured window position (.ok false) window'
  /-- The source failed. -/
  | failed {window' : Window} {error : SourceError} : ¬ window.source.Reliable →
      Ensured window position (.error (.source error)) window'

/-- **Asking for a position reaches further**, until it is available, or there
is no more, or the source fails. -/
theorem Shows.ensure (h : window.Shows bytes) {position : Nat} {outcome : Except Fault Bool}
    (e : window.ensure position = (outcome, window')) :
    window.Reaches bytes window' ∧ Ensured window position outcome window' := by
  fun_induction Window.ensure window position with
  | case1 window missing exhausted =>
    obtain ⟨rfl, rfl⟩ := Prod.mk.inj e
    exact ⟨.refl h, .ended missing exhausted⟩
  | case2 window missing more fault failed refilled =>
    obtain ⟨rfl, rfl⟩ := Prod.mk.inj e
    obtain ⟨reaches, yields⟩ := h.refill (by omega) refilled
    -- a refill is expected to succeed, so a reliable source has no part in this
    obtain ⟨unreliable, error, eq⟩ := yields.resolve_left (by simp)
    obtain rfl := Except.error.inj eq
    exact ⟨reaches, .failed unreliable⟩
  | case3 window missing more next refilled ih =>
    obtain ⟨reaches, -⟩ := h.refill (by omega) refilled
    obtain ⟨further, ensured⟩ := ih reaches.shows e
    refine ⟨reaches.trans further, ?_⟩
    cases ensured with
    | available enough => exact .available enough
    | ended short exhausted => exact .ended short exhausted
    | failed unreliable => exact .failed fun reliable => unreliable (reaches.reliable reliable)
  | case4 window enough =>
    obtain ⟨rfl, rfl⟩ := Prod.mk.inj e
    exact ⟨.refl h, .available (by omega)⟩

/-- What is available need not be asked for. -/
theorem ensure_of_le {position : Nat} (h : position ≤ window.buffered) :
    window.ensure position = (.ok true, window) := by
  rw [Window.ensure, if_neg (by omega)]

/-- **The end of a truthful window is the end of the input.** -/
theorem Truthful.buffered_eq (h : window.Truthful) (hshows : window.Shows bytes)
    (exhausted : window.exhausted = true) : window.buffered = bytes.size := by
  rw [hshows.buffered_eq, h.given_eq exhausted, hshows.bytes_eq]

/-- What a source yields after it was asked, it yields. -/
theorem Reaches.yields {α : Type} {expected outcome : Except Fault α}
    (h : window.Reaches bytes window') (yields : window'.source.Yields expected outcome) :
    window.source.Yields expected outcome :=
  yields.imp_right fun failed => ⟨fun reliable => failed.1 (h.reliable reliable), failed.2⟩

/-! ## Looking -/

/-- **The byte at an index is that of the input.** -/
theorem Shows.byteAt (h : window.Shows bytes) (truthful : window.Truthful) {index : Nat}
    (hfloor : window.floor ≤ index) {outcome : Except Fault (Option UInt8)}
    (e : window.byteAt index = (outcome, window')) :
    window.Reaches bytes window' ∧ window.source.Yields (.ok bytes[index]?) outcome := by
  rw [Window.byteAt, if_neg (by omega)] at e
  split at e
  all_goals
    rename_i ensured
    obtain ⟨rfl, rfl⟩ := Prod.mk.inj e
    obtain ⟨reaches, ended⟩ := h.ensure ensured
    refine ⟨reaches, ?_⟩
    cases ended
  case failed unreliable => exact .inr ⟨unreliable, _, rfl⟩
  case ended short exhausted =>
    rw [(reaches.truthful truthful).buffered_eq reaches.shows exhausted] at short
    exact .inl (by rw [Array.getElem?_eq_none (by omega)])
  case available enough =>
    refine .inl ?_
    rw [reaches.shows.held_getElem? (reaches.floor_eq.trans_le hfloor) (by omega)]

/-- **A range is one of the input** if it is in order and does not pass the
end. -/
theorem Shows.range (h : window.Shows bytes) (truthful : window.Truthful) {start stop : Nat}
    (hfloor : window.floor ≤ start) {outcome : Except Fault Span}
    (e : window.range start stop = (outcome, window')) :
    window.Reaches bytes window'
      ∧ window.source.Yields
        (if start ≤ stop ∧ stop ≤ bytes.size then .ok ⟨start, stop⟩
          else .error (.access (.invalidRange start stop))) outcome
      ∧ ∀ span, outcome = .ok span → stop ≤ window'.buffered := by
  rw [Window.range, if_neg (by omega)] at e
  split at e
  case isTrue inverted =>
    obtain ⟨rfl, rfl⟩ := Prod.mk.inj e
    exact ⟨.refl h, .inl (by rw [if_neg (by omega)]), by simp⟩
  case isFalse ordered =>
    split at e
    all_goals
      rename_i ensured
      obtain ⟨rfl, rfl⟩ := Prod.mk.inj e
      obtain ⟨reaches, ended⟩ := h.ensure ensured
      refine ⟨reaches, ?_⟩
      cases ended
    case failed unreliable => exact ⟨.inr ⟨unreliable, _, rfl⟩, by simp⟩
    case ended short exhausted =>
      rw [(reaches.truthful truthful).buffered_eq reaches.shows exhausted] at short
      exact ⟨.inl (by rw [if_neg (by omega)]), by simp⟩
    case available enough =>
      have := reaches.shows.given_le
      rw [reaches.shows.buffered_eq] at enough
      exact ⟨.inl (by rw [if_pos (by omega)]), fun _ _ => reaches.shows.buffered_eq ▸ enough⟩

/-- **The bytes of a range are those of the input.** -/
theorem Shows.slice (h : window.Shows bytes) (truthful : window.Truthful) {start : Nat}
    (stop : Nat) (hfloor : window.floor ≤ start) {outcome : Except Fault Bytes}
    (e : window.slice start stop = (outcome, window')) :
    window.Reaches bytes window'
      ∧ window.source.Yields
        (if start ≤ stop ∧ stop ≤ bytes.size then .ok (bytes.extract start stop).toList
          else .error (.access (.invalidRange start stop))) outcome := by
  unfold Window.slice at e
  split at e
  all_goals
    rename_i ranged
    obtain ⟨rfl, rfl⟩ := Prod.mk.inj e
    obtain ⟨reaches, yields, buffered⟩ := h.range truthful hfloor ranged
    refine ⟨reaches, ?_⟩
  · rcases yields with eq | failed
    · split at eq
      case isTrue => simp at eq
      case isFalse outside =>
        obtain rfl := Except.error.inj eq
        exact .inl (by rw [if_neg outside])
    · obtain ⟨unreliable, error, eq⟩ := failed
      obtain rfl := Except.error.inj eq
      exact .inr ⟨unreliable, error, rfl⟩
  · rcases yields with eq | ⟨-, error, eq⟩
    · split at eq
      case isTrue inside =>
        obtain rfl := Except.ok.inj eq
        refine .inl ?_
        rw [if_pos inside, reaches.shows.between_eq (reaches.floor_eq.trans_le hfloor) inside.1
          (buffered _ rfl)]
      case isFalse => simp at eq
    · simp at eq

/-- **What comes next is a beginning of what the input has next**, and all of
it if the source does not fail meanwhile. -/
theorem Shows.previewOnto (h : window.Shows bytes) (truthful : window.Truthful) {start : Nat}
    (hfloor : window.floor ≤ start) (before : Bytes) (count : Nat) {shown : Bytes}
    (e : window.previewOnto before start count = (shown, window')) :
    window.Reaches bytes window'
      ∧ ∃ next, shown = before.reverse ++ next ∧ next <+: (bytes.toList.drop start).take count
        ∧ (window'.source.failures = window.source.failures →
          next = (bytes.toList.drop start).take count) := by
  induction count generalizing window before start with
  | zero =>
    obtain ⟨rfl, rfl⟩ := Prod.mk.inj e
    exact ⟨.refl h, [], by simp⟩
  | succ count ih =>
    rw [Window.previewOnto] at e
    split at e
    case h_1 byte window' looked =>
      obtain ⟨reaches, yields⟩ := h.byteAt truthful hfloor looked
      have met : window.source.failures = window'.source.failures := meets_byteAt looked
      have here := Except.ok.inj (yields.resolve_right (by simp))
      obtain ⟨further, next, shown_eq, isPrefix, all⟩ :=
        ih reaches.shows (reaches.truthful truthful)
          (reaches.floor_eq.trans_le (by omega)) (byte :: before) e
      have split : (bytes.toList.drop start).take (count + 1)
          = byte :: (bytes.toList.drop (start + 1)).take count := by
        rw [List.drop_eq_getElem?_toList_append, Array.getElem?_toList, ← here]
        rfl
      refine ⟨reaches.trans further, byte :: next, by simp [shown_eq], ?_, fun calm => ?_⟩
      · rw [split]
        exact (List.prefix_cons_inj byte).2 isPrefix
      · rw [split, all (calm.trans met)]
    case h_2 other looked =>
      obtain ⟨rfl, rfl⟩ := Prod.mk.inj e
      obtain ⟨reaches, yields⟩ := h.byteAt truthful hfloor looked
      refine ⟨reaches, [], by simp, List.nil_prefix, fun calm => ?_⟩
      have quiet := (meets_byteAt looked).raised_eq_none calm
      have here := yields.resolve_right <| by
        rintro ⟨-, error, failed⟩
        rw [failed] at quiet
        simp at quiet
      cases nothing : bytes[start]? with
      | some byte => exact (other byte (here.trans (by rw [nothing]))).elim
      | none =>
        rw [Array.getElem?_eq_none_iff] at nothing
        rw [List.drop_of_length_le (by simpa using nothing), List.take_nil]

/-! ## Searching -/

variable {find : Array UInt8 → Nat → Option Nat} {spot : Bytes → Prop} {width start : Nat}

/-- What is found in the window is the first place in the input. -/
theorem Shows.find_held (h : window.Shows bytes) (locates : Locates find spot width)
    (hfloor : window.floor ≤ start) {index : Nat}
    (found : find window.held (start - window.floor) = some index) :
    find bytes start = some (window.floor + index) := by
  rw [locates.find_eq_some_iff] at found ⊢
  refine locates.isFirst_of_take window.source.given ?_
  have here : ∀ place, window.held.toList.drop place
      = (bytes.toList.take window.source.given).drop (window.floor + place) := by
    intro place
    rw [← h.drop_held (Nat.le_add_right _ _), Nat.add_sub_cancel_left]
  refine ⟨?_, here index ▸ found.holds, fun before hb hlt => ?_⟩
  · have := found.le
    omega
  · have := found.least (before - window.floor) (by omega) (by omega)
    rwa [here, Nat.add_sub_of_le (hfloor.trans hb)] at this

/-- If nothing is found in the window, there is nothing as far as it
reaches. -/
theorem Shows.not_spot (h : window.Shows bytes) (locates : Locates find spot width)
    (hfloor : window.floor ≤ start)
    (nothing : (if start < window.buffered then find window.held (start - window.floor) else none)
      = none) {index : Nat} (hle : start ≤ index) (hbuffered : index + width ≤ window.buffered) :
    ¬ spot (bytes.toList.drop index) := by
  have := locates.width_pos
  rw [if_pos (by omega), locates.find_eq_none_iff] at nothing
  intro hspot
  refine nothing (index - window.floor) (by omega) ?_
  rw [h.drop_held (hfloor.trans hle), locates.spot_drop_take_iff, ← h.buffered_eq]
  exact ⟨hspot, hbuffered⟩

/-- **A search finds the first place in the input**, wherever the borders of
the window lie while it goes on. It starts again `width - 1` bytes before the
end of what was searched, which is the earliest place that was not seen in
full. -/
theorem Shows.search (h : window.Shows bytes) (truthful : window.Truthful)
    (locates : Locates find spot width) (hfloor : window.floor ≤ start)
    {outcome : Except Fault (Option Nat)}
    (e : window.search find (width - 1) start = (outcome, window')) :
    window.Reaches bytes window' ∧ window.source.Yields (.ok (find bytes start)) outcome := by
  fun_induction Window.search window find (width - 1) start with
  | case1 window start index found =>
    obtain ⟨rfl, rfl⟩ := Prod.mk.inj e
    split at found
    case isFalse => simp at found
    case isTrue => exact ⟨.refl h, .inl (by rw [h.find_held locates hfloor found])⟩
  | case2 window start nothing fault failed ensured =>
    obtain ⟨rfl, rfl⟩ := Prod.mk.inj e
    obtain ⟨reaches, ended⟩ := h.ensure ensured
    cases ended with
    | failed unreliable => exact ⟨reaches, .inr ⟨unreliable, _, rfl⟩⟩
  | case3 window start nothing last ensured =>
    obtain ⟨rfl, rfl⟩ := Prod.mk.inj e
    obtain ⟨reaches, ended⟩ := h.ensure ensured
    refine ⟨reaches, .inl ?_⟩
    cases ended with
    | ended short exhausted =>
      rw [(reaches.truthful truthful).buffered_eq reaches.shows exhausted] at short
      rw [(locates.find_eq_none_iff bytes start).2 fun index hle hspot => ?_]
      have fits := ((locates.spot_drop_take_iff bytes.toList bytes.size index).1
        (by rwa [← Array.length_toList, List.take_length])).2
      exact h.not_spot locates hfloor nothing hle (by omega) hspot
  | case4 window start nothing next ensured ih =>
    simp only [dite_eq_ite] at ih
    obtain ⟨reaches, ended⟩ := h.ensure ensured
    have later : start ≤ if start < window.buffered then max start (window.buffered - (width - 1))
        else start := by
      split <;> omega
    obtain ⟨further, yields⟩ := ih reaches.shows (reaches.truthful truthful)
      (reaches.floor_eq.trans_le (hfloor.trans later)) e
    refine ⟨reaches.trans further, ?_⟩
    -- what the next round does not look at was seen in full by this one
    rw [locates.find_eq_of_skipped later fun index hle hlt => ?_] at yields
    · exact reaches.yields yields
    · refine h.not_spot locates hfloor nothing hle ?_
      have := locates.width_pos
      split at hlt <;> omega

/-! ## Releasing -/

/-- What is released is gone, and the rest is as it was. -/
theorem Shows.release (h : window.Shows bytes) {floor : Nat} (hfloor : window.floor ≤ floor)
    (hbuffered : floor ≤ window.buffered) :
    Shows bytes { window with
      held := window.held.extract (floor - window.floor) window.held.size, floor } where
  bytes_eq := h.bytes_eq
  given_le := h.given_le
  floor_le := hbuffered.trans_eq h.buffered_eq
  held_eq := by
    have := h.given_le
    have := h.buffered_eq
    rw [h.held_eq, Array.size_extract, Array.extract_extract, Nat.add_sub_of_le hfloor]
    dsimp only
    congr 1
    omega
  step_pos := h.step_pos

/-- **Releasing what is below an available position** changes nothing but the
floor, and does not raise it above the position. -/
theorem Shows.discardBefore (h : window.Shows bytes) {position : Nat}
    (hbuffered : position ≤ window.buffered) (hfloor : window.floor ≤ position) :
    ∃ window', window.discardBefore position = (.ok (), window') ∧ window'.Shows bytes
      ∧ window'.source = window.source ∧ window'.exhausted = window.exhausted
      ∧ window'.floor ≤ position := by
  unfold Window.discardBefore
  rw [ensure_of_le hbuffered]
  dsimp only
  split
  case isTrue near => exact ⟨window, rfl, h, rfl, rfl, hfloor⟩
  case isFalse far =>
    exact ⟨_, rfl, h.release (le_min hfloor (hfloor.trans hbuffered)) (min_le_right _ _), rfl, rfl,
      min_le_left _ _⟩

end Window

end TableDump
