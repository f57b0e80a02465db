import Mathlib
import TableDump.Proofs.Failures
import TableDump.Proofs.Window

/-!
# A window keeps what it was given

A window may be asked for anything, in any order, and its source may give what
it likes: few bytes, none although there are more, or a failure at any request.
Whatever has happened, the window holds what the source has given out, from the
floor on, and nothing else (`Window.faithful_after`). So an answer is the byte or the
range *of what was given out* – or else it says what is in the way: it was
released, the source failed, or the source has said that there is no more. There
are also operations that come to no answer, and these are told by their numbers
and the floor alone (`Operation.Unanswered`).

What is known of the source is only that it has given some bytes
(`Source.delivered`). Nothing is asked of it here, so the end that it reports
need not be the end of what it has.
-/

namespace TableDump

namespace Source

variable {source source' : Source} {room : Nat} {chunk : Array UInt8}

theorem length_delivered (h : source.given ≤ source.bytes.size) :
    source.delivered.length = source.given := by
  rw [delivered, List.length_take, Array.length_toList, min_eq_left h]

/-- What has been given out stays so. -/
theorem delivered_prefix (bytes_eq : source'.bytes = source.bytes)
    (given_le : source.given ≤ source'.given) : source.delivered <+: source'.delivered := by
  rw [delivered, delivered, bytes_eq]
  exact List.take_prefix_take_left given_le

/-- **The source has said that there is no more**: it has answered a request that
left room for a byte with nothing. -/
def Ended (source : Source) : Prop :=
  ∃ (before : Source) (room : Nat), 0 < room ∧ before.pull room = (.ok #[], source)

/-- An answer comes behind what was given out before. -/
theorem Gave.delivered_eq (h : Gave source source' chunk) :
    source'.delivered = source.delivered ++ chunk.toList := by
  rw [delivered, delivered, h.bytes_eq, h.chunk_eq, Array.toList_extract,
    List.extract_eq_take_drop, ← List.take_add, Nat.add_sub_of_le h.given_le]

end Source

namespace Window

/-! ## Operations -/

/-- **What may be asked of a window.** -/
inductive Operation where
  | ensure (position : Nat)
  | byteAt (index : Nat)
  | slice (start stop : Nat)
  | range (start stop : Nat)
  | resolve (span : Span)
  | discardBefore (position : Nat)
  deriving DecidableEq, Repr

namespace Operation

/-- What an operation answers with. -/
abbrev Result : Operation → Type
  | ensure _ => Bool
  | byteAt _ => Option UInt8
  | slice _ _ => Bytes
  | range _ _ => Span
  | resolve _ => Bytes
  | discardBefore _ => Unit

/-- **Carries an operation out.** There is an outcome where all that is reckoned with
are numbers. -/
def perform : (operation : Operation) → Window → Option (Except Fault operation.Result × Window)
  | ensure position, window => some (window.ensure position)
  | byteAt index, window => window.byteAt? index
  | slice start stop, window => some (window.slice start stop)
  | range start stop, window => some (window.range start stop)
  | resolve span, window => (window.resolve? span).map fun outcome => (outcome, window)
  | discardBefore position, window => window.discardBefore? position

/-- **The operations that have no outcome**: the byte at the largest index is looked
at, a range is looked up that ends below the floor and begins elsewhere, or bytes are
to be released that are available, and no position is a step behind the floor. -/
def Unanswered (window : Window) : Operation → Prop
  | byteAt index => window.floor ≤ index ∧ Index.largest ≤ index
  | resolve span => window.floor ≤ span.start ∧ span.stop < window.floor
  | discardBefore position => ∃ available next, window.ensure position = (.ok available, next)
      ∧ Index.largest < next.floor + next.step
  | ensure _ | slice _ _ | range _ _ => False

/-- There are no others. -/
theorem perform_eq_none_iff {operation : Operation} {window : Window} :
    operation.perform window = none ↔ operation.Unanswered window := by
  cases operation with
  | byteAt index =>
    show window.byteAt? index = none ↔ _
    rw [byteAt?_eq]
    exact ite_eq_left_iff.trans (by simp [Unanswered])
  | resolve span =>
    show (window.resolve? span).map _ = none ↔ window.floor ≤ span.start ∧ _
    rw [Option.map_eq_none_iff, resolve?_eq]
    split_ifs <;> simp <;> omega
  | discardBefore position => exact discardBefore?_eq_none_iff
  | ensure position | slice start stop | range start stop =>
    exact iff_of_false (Option.some_ne_none _) id

/-- What comes of looking up a range leaves the window as it is. -/
theorem perform_resolve_eq_some_iff {span : Span} {window next : Window}
    {outcome : Except Fault Bytes} :
    (resolve span).perform window = some (outcome, next)
      ↔ window.resolve? span = some outcome ∧ next = window := by
  show (window.resolve? span).map (fun outcome => (outcome, window)) = _ ↔ _
  rw [Option.map_eq_some_iff]
  constructor
  · rintro ⟨_, resolved, same⟩
    obtain ⟨rfl, rfl⟩ := Prod.mk.inj same
    exact ⟨resolved, rfl⟩
  · rintro ⟨resolved, rfl⟩
    exact ⟨outcome, resolved, rfl⟩

/-- What comes of looking at a byte is what the byte is. -/
theorem byteAt_of_perform {index : Nat} {window next : Window}
    {outcome : Except Fault (Option UInt8)}
    (h : (byteAt index).perform window = some (outcome, next)) :
    window.byteAt index = (outcome, next) := by
  change window.byteAt? index = some (outcome, next) at h
  rw [byteAt?_eq] at h
  split at h
  · cases h
  · exact Option.some.inj h

end Operation

/-- The window after some operations, whatever comes of them. One that has no outcome
is the last. -/
def after : (operations : List Operation) → Window → Window
  | [], window => window
  | operation :: operations, window =>
    match operation.perform window with
    | none => window
    | some (_, next) => next.after operations

variable {bytes : Array UInt8} {window window' window'' : Window}

/-! ## What an operation does -/

/-- **What any operation does to a window**: it goes on. -/
structure Proceeds (bytes : Array UInt8) (window window' : Window) : Prop where
  shows : window'.Shows bytes
  floor_le : window.floor ≤ window'.floor
  given_le : window.source.given ≤ window'.source.given
  /-- Behind the end nothing is asked for. -/
  ended : window.exhausted = true → window'.exhausted = true ∧ window'.source = window.source
  /-- It is the source that says where the end is. -/
  told : (window.exhausted = true → window.source.Ended) →
    window'.exhausted = true → window'.source.Ended

theorem Proceeds.refl (h : window.Shows bytes) : window.Proceeds bytes window :=
  ⟨h, le_rfl, le_rfl, fun exhausted => ⟨exhausted, rfl⟩, id⟩

theorem Proceeds.trans (h : window.Proceeds bytes window')
    (h' : window'.Proceeds bytes window'') : window.Proceeds bytes window'' where
  shows := h'.shows
  floor_le := h.floor_le.trans h'.floor_le
  given_le := h.given_le.trans h'.given_le
  ended exhausted :=
    have stopped := h.ended exhausted
    have stopped' := h'.ended stopped.1
    ⟨stopped'.1, stopped'.2.trans stopped.2⟩
  told := h'.told ∘ h.told

/-- Behind the end nothing is asked for. -/
theorem ensure_of_exhausted (exhausted : window.exhausted = true) (position : Nat) :
    (window.ensure position).2 = window := by
  rw [Window.ensure]
  split
  · split
    · rfl
    · simp_all
  · rfl

/-- A failure says nothing about the end. -/
theorem exhausted_of_refill_error {wanted : Nat} {fault : Fault}
    (e : window.refill wanted = (.error fault, window')) :
    window'.exhausted = window.exhausted := by
  unfold refill at e
  split at e
  · obtain ⟨-, rfl⟩ := Prod.mk.inj e
    rfl
  · simp at e

/-- The source fails before the end only. -/
theorem more_of_ensure_error {position : Nat} {fault : Fault}
    (e : window.ensure position = (.error fault, window')) : window'.exhausted = false := by
  fun_induction Window.ensure window position with
  | case1 | case4 => simp at e
  | case2 window missing more fault' failed refilled =>
    obtain ⟨-, rfl⟩ := Prod.mk.inj e
    exact (exhausted_of_refill_error refilled).trans more
  | case3 window missing more next refilled ih => exact ih e

namespace Shows

/-- A request that brings the end is one that the source answers with nothing. -/
theorem told_refill (h : window.Shows bytes) {wanted : Nat} (hwanted : 0 < wanted)
    (e : window.refill wanted = (.ok (), window')) (exhausted : window'.exhausted = true) :
    window'.source.Ended := by
  unfold Window.refill at e
  split at e
  · simp at e
  · rename_i chunk source pulled
    obtain ⟨-, rfl⟩ := Prod.mk.inj e
    obtain rfl : chunk = #[] := by simpa using exhausted
    exact ⟨window.source, window.room wanted, room_pos h.step_pos hwanted, pulled⟩

theorem told_ensure (h : window.Shows bytes)
    (told : window.exhausted = true → window.source.Ended) {position : Nat}
    {outcome : Except Fault Bool} (e : window.ensure position = (outcome, window'))
    (exhausted : window'.exhausted = true) : window'.source.Ended := by
  fun_induction Window.ensure window position with
  | case1 | case4 =>
    obtain ⟨-, rfl⟩ := Prod.mk.inj e
    exact told exhausted
  | case2 window missing more fault failed refilled =>
    obtain ⟨-, rfl⟩ := Prod.mk.inj e
    simp [exhausted_of_refill_error refilled, more] at exhausted
  | case3 window missing more next refilled ih =>
    obtain ⟨reaches, -⟩ := h.refill (by omega) refilled
    exact ih reaches.shows (h.told_refill (by omega) refilled) e

/-- Asking for a position releases nothing. -/
theorem proceeds_ensure (h : window.Shows bytes) (position : Nat) :
    window.Proceeds bytes (window.ensure position).2 := by
  have stops : window.exhausted = true → (window.ensure position).2 = window :=
    fun exhausted => ensure_of_exhausted exhausted position
  rcases ensured : window.ensure position with ⟨outcome, next⟩
  obtain ⟨reaches, -⟩ := h.ensure ensured
  rw [ensured] at stops
  refine ⟨reaches.shows, reaches.floor_eq.ge, reaches.given_le, fun exhausted => ?_,
    fun told => h.told_ensure told ensured⟩
  obtain rfl : next = window := stops exhausted
  exact ⟨exhausted, rfl⟩

/-- Releasing goes as far as there are bytes. -/
theorem proceeds_discardBefore (h : window.Shows bytes) (position : Nat) :
    window.Proceeds bytes (window.discardBefore position).2 := by
  have asked := h.proceeds_ensure position
  unfold Window.discardBefore
  split
  · rename_i ensured
    rwa [ensured] at asked
  · rename_i between ensured
    rw [ensured] at asked
    split
    · exact asked
    · rename_i far
      have below : between.floor ≤ between.buffered := Nat.le_add_right _ _
      have higher : between.floor ≤ min position between.buffered := le_min (by omega) below
      exact asked.trans ⟨asked.shows.release higher (min_le_right _ _), higher, le_rfl,
        fun exhausted => ⟨exhausted, rfl⟩, id⟩

end Shows

/-- **How an operation on a range ends**, that gives `found` when it succeeds. -/
inductive Ranged {α : Type} (window window' : Window) (start stop : Nat) (found : α) :
    Except Fault α → Prop
  /-- The beginning has been released. -/
  | discarded : start < window.floor →
      Ranged window window' start stop found (.error (.access (.discarded start window.floor)))
  /-- The range is not in order, or the source has ended before. -/
  | invalid : window.floor ≤ start →
      stop < start ∨ window'.exhausted = true ∧ window'.source.delivered.length < stop →
      Ranged window window' start stop found (.error (.access (.invalidRange start stop)))
  /-- The source failed. -/
  | failed {error : SourceError} : start ≤ stop → window'.exhausted = false →
      Ranged window window' start stop found (.error (.source error))
  /-- It has been given out. -/
  | available : window.floor ≤ start → start ≤ stop → stop ≤ window'.source.delivered.length →
      Ranged window window' start stop found (.ok found)

/-- **A range is invalid** if it is not in order or the source has ended before,
and only then. -/
theorem Ranged.invalid_iff {α : Type} {start stop : Nat} {found : α} {outcome : Except Fault α}
    (h : Ranged window window' start stop found outcome) (hfloor : window.floor ≤ start) :
    outcome = .error (.access (.invalidRange start stop))
      ↔ stop < start ∨ window'.exhausted = true ∧ window'.source.delivered.length < stop := by
  cases h with
  | discarded below => omega
  | invalid _ why => exact ⟨fun _ => why, fun _ => rfl⟩
  | failed ordered more =>
    refine ⟨nofun, ?_⟩
    rintro (inverted | ⟨exhausted, -⟩)
    · omega
    · simp [more] at exhausted
  | available _ ordered enough =>
    refine ⟨nofun, ?_⟩
    rintro (inverted | ⟨-, short⟩) <;> omega

namespace Shows

/-- What is buffered is what was given out. -/
theorem length_delivered (h : window.Shows bytes) :
    window.source.delivered.length = window.buffered := by
  rw [h.buffered_eq, Source.length_delivered (h.bytes_eq ▸ h.given_le)]

/-- What was given out is a beginning of the input. -/
theorem delivered_prefix (h : window.Shows bytes) : window.source.delivered <+: bytes.toList := by
  rw [Source.delivered, h.bytes_eq]
  exact List.take_prefix _ _

/-- **What is held is what was given out**, from the floor on. -/
theorem held_eq_drop (h : window.Shows bytes) :
    window.held.toList = window.source.delivered.drop window.floor := by
  have shown := h.drop_held (le_refl window.floor)
  rwa [Nat.sub_self, List.drop_zero, ← h.bytes_eq] at shown

/-- The bytes of a range that is held. -/
theorem between_eq_delivered (h : window.Shows bytes) {start stop : Nat}
    (hfloor : window.floor ≤ start) (ordered : start ≤ stop)
    (enough : stop ≤ window.source.delivered.length) :
    window.between start stop = (window.source.delivered.take stop).drop start := by
  have buffered := h.length_delivered ▸ enough
  rw [h.between_eq hfloor ordered buffered, Array.toList_extract, List.extract_eq_take_drop,
    ← List.drop_take, Source.delivered, List.take_take, h.bytes_eq,
    min_eq_left (buffered.trans_eq h.buffered_eq)]

/-- **The byte at an index** is the one that was given out there, unless the
source fails or has ended before. -/
theorem looked (h : window.Shows bytes) {index : Nat} (hfloor : window.floor ≤ index)
    {outcome : Except Fault (Option UInt8)} (e : window.byteAt index = (outcome, window')) :
    (∃ error, outcome = .error (.source error))
      ∨ (∃ byte, outcome = .ok (some byte) ∧ window'.source.delivered[index]? = some byte)
      ∨ outcome = .ok none ∧ window'.exhausted = true
          ∧ window'.source.delivered.length ≤ index := by
  rw [Window.byteAt, if_neg (by omega)] at e
  split at e
  all_goals
    rename_i window' ensured
    obtain ⟨rfl, rfl⟩ := Prod.mk.inj e
    obtain ⟨reaches, ended⟩ := h.ensure ensured
    cases ended
  case failed error unreliable => exact .inl ⟨error, rfl⟩
  case ended short exhausted =>
    rw [reaches.shows.length_delivered]
    exact .inr (.inr ⟨rfl, exhausted, by omega⟩)
  case available enough =>
    have given : window'.held[index - window'.floor]? = window'.source.delivered[index]? := by
      rw [← Array.getElem?_toList, reaches.shows.held_eq_drop, List.getElem?_drop,
        Nat.add_sub_of_le (reaches.floor_eq.trans_le hfloor)]
    have inside : index < window'.source.delivered.length := by
      rw [reaches.shows.length_delivered]
      omega
    rw [given, List.getElem?_eq_getElem inside]
    exact .inr (.inl ⟨_, rfl, rfl⟩)

theorem ranged (h : window.Shows bytes) {start stop : Nat} {outcome : Except Fault Span}
    (e : window.range start stop = (outcome, window')) :
    window.Reaches bytes window'
      ∧ Ranged window window' start stop ⟨start, stop⟩ outcome := by
  unfold Window.range at e
  split at e
  case isTrue below =>
    obtain ⟨rfl, rfl⟩ := Prod.mk.inj e
    exact ⟨.refl h, .discarded below⟩
  case isFalse hfloor =>
    split at e
    case isTrue inverted =>
      obtain ⟨rfl, rfl⟩ := Prod.mk.inj e
      exact ⟨.refl h, .invalid (by omega) (.inl inverted)⟩
    case isFalse ordered =>
      split at e
      all_goals
        rename_i ensured
        obtain ⟨rfl, rfl⟩ := Prod.mk.inj e
        obtain ⟨reaches, ended⟩ := h.ensure ensured
        refine ⟨reaches, ?_⟩
        cases ended
      case failed error unreliable => exact .failed (by omega) (more_of_ensure_error ensured)
      case ended short exhausted =>
        exact .invalid (by omega) (.inr ⟨exhausted, reaches.shows.length_delivered ▸ short⟩)
      case available enough =>
        exact .available (by omega) (by omega) (reaches.shows.length_delivered ▸ enough)

/-- The bytes of a range are those that were given out there. -/
theorem sliced (h : window.Shows bytes) {start stop : Nat} {outcome : Except Fault Bytes}
    (e : window.slice start stop = (outcome, window')) :
    Ranged window window' start stop ((window'.source.delivered.take stop).drop start)
      outcome := by
  unfold Window.slice at e
  split at e
  all_goals
    rename_i window' asked
    obtain ⟨rfl, rfl⟩ := Prod.mk.inj e
    obtain ⟨reaches, ranged⟩ := h.ranged asked
    cases ranged
  case discarded below => exact .discarded below
  case invalid hfloor why => exact .invalid hfloor why
  case failed ordered more => exact .failed ordered more
  case available hfloor ordered enough =>
    dsimp only
    rw [reaches.shows.between_eq_delivered (reaches.floor_eq.trans_le hfloor) ordered enough]
    exact .available hfloor ordered enough

/-- Looking at a byte is asking for a position, at most. -/
theorem proceeds_byteAt (h : window.Shows bytes) (index : Nat) :
    window.Proceeds bytes (window.byteAt index).2 := by
  have asked := h.proceeds_ensure (index + 1)
  unfold Window.byteAt
  split
  · exact .refl h
  · split
    all_goals
      rename_i ensured
      rwa [ensured] at asked

/-- So is making a range available. -/
theorem proceeds_range (h : window.Shows bytes) (start stop : Nat) :
    window.Proceeds bytes (window.range start stop).2 := by
  have asked := h.proceeds_ensure stop
  unfold Window.range
  split
  · exact .refl h
  · split
    · exact .refl h
    · split
      all_goals
        rename_i ensured
        rwa [ensured] at asked

/-- And cutting it out. -/
theorem proceeds_slice (h : window.Shows bytes) (start stop : Nat) :
    window.Proceeds bytes (window.slice start stop).2 := by
  have asked := h.proceeds_range start stop
  unfold Window.slice
  split
  all_goals
    rename_i handed
    rwa [handed] at asked

/-- **Whatever comes of an operation, the window goes on.** -/
theorem proceeds (h : window.Shows bytes) {operation : Operation}
    {outcome : Except Fault operation.Result}
    (e : operation.perform window = some (outcome, window')) : window.Proceeds bytes window' := by
  cases operation with
  | ensure position =>
    obtain rfl : (window.ensure position).2 = window' := congrArg Prod.snd (Option.some.inj e)
    exact h.proceeds_ensure position
  | slice start stop =>
    obtain rfl : (window.slice start stop).2 = window' := congrArg Prod.snd (Option.some.inj e)
    exact h.proceeds_slice start stop
  | range start stop =>
    obtain rfl : (window.range start stop).2 = window' := congrArg Prod.snd (Option.some.inj e)
    exact h.proceeds_range start stop
  | discardBefore position =>
    obtain rfl : (window.discardBefore position).2 = window' :=
      congrArg Prod.snd (discardBefore_of_discardBefore? e)
    exact h.proceeds_discardBefore position
  | byteAt index =>
    obtain rfl : (window.byteAt index).2 = window' :=
      congrArg Prod.snd (Operation.byteAt_of_perform e)
    exact h.proceeds_byteAt index
  | resolve span =>
    obtain ⟨-, rfl⟩ := Operation.perform_resolve_eq_some_iff.1 e
    exact .refl h

end Shows

/-- A range that the source fails to give was asked for. -/
theorem ensure_of_range_failed {start stop : Nat} {error : SourceError}
    (e : window.range start stop = (.error (.source error), window')) :
    window.ensure stop = (.error (.source error), window') := by
  unfold range at e
  split at e
  · simp at e
  · split at e
    · simp at e
    · split at e
      · rename_i ensured
        exact ensured.trans (by simpa using e)
      · simp at e
      · simp at e

/-- **An operation fails with the source only where it asks for a position.** -/
theorem exists_ensure_of_failed {operation : Operation} {error : SourceError}
    (failed : operation.perform window = some (.error (.source error), window')) :
    ∃ position, window.ensure position = (.error (.source error), window') := by
  cases operation with
  | ensure position => exact ⟨position, Option.some.inj failed⟩
  | range start stop => exact ⟨stop, ensure_of_range_failed (Option.some.inj failed)⟩
  | byteAt index =>
    have e : window.byteAt index = _ := Operation.byteAt_of_perform failed
    unfold byteAt at e
    split at e
    · simp at e
    · split at e
      · rename_i ensured
        exact ⟨_, ensured.trans (by simpa using e)⟩
      · simp at e
      · simp at e
  | slice start stop =>
    have e : window.slice start stop = _ := Option.some.inj failed
    unfold slice at e
    split at e
    · rename_i asked
      exact ⟨stop, ensure_of_range_failed (asked.trans (by simpa using e))⟩
    · simp at e
  | discardBefore position =>
    have e : window.discardBefore position = _ := discardBefore_of_discardBefore? failed
    unfold discardBefore at e
    split at e
    · rename_i ensured
      exact ⟨position, ensured.trans (by simpa using e)⟩
    · split at e <;> simp at e
  | resolve span =>
    obtain ⟨e, -⟩ := Operation.perform_resolve_eq_some_iff.1 failed
    rw [resolve?_eq] at e
    split_ifs at e <;> simp at e

/-! ## Whole runs -/

/-- **Whatever is asked of a window, it keeps what it was given.** -/
theorem Shows.after (h : window.Shows bytes) (operations : List Operation) :
    window.Proceeds bytes (window.after operations) := by
  induction operations generalizing window with
  | nil => exact .refl h
  | cons operation operations ih =>
    rw [Window.after]
    split
    case h_1 => exact .refl h
    case h_2 next performed =>
      have first := h.proceeds performed
      exact first.trans (ih first.shows)

/-- **The window keeps what it was given**, now and in whatever is asked of it
next. What the source has given out so far are its `delivered` bytes. -/
structure Faithful (bytes : Array UInt8) (window : Window) : Prop where
  /-- They are bytes of the source, in order. -/
  delivered_prefix : window.source.delivered <+: bytes.toList
  /-- The window holds them from its floor on. -/
  held_eq : window.held.toList = window.source.delivered.drop window.floor
  /-- It ends where they end. -/
  buffered_eq : window.floor + window.held.size = window.source.delivered.length
  /-- It is the source that has said where the end is. -/
  ended : window.exhausted = true → window.source.Ended
  /-- What the source gives next comes behind them. -/
  gives : ∀ room chunk source, window.source.pull room = (.ok chunk, source) →
    source.delivered = window.source.delivered ++ chunk.toList
      ∧ source.delivered <+: bytes.toList
  /-- An operation has an outcome, unless it asks for what is no number. -/
  unanswered : ∀ operation : Operation,
    operation.perform window = none ↔ operation.Unanswered window
  /-- No operation lowers the floor or takes back what was given, and behind the
  end none asks the source for anything. -/
  proceeds : ∀ (operation : Operation) outcome next,
    operation.perform window = some (outcome, next) →
    window.floor ≤ next.floor
      ∧ window.source.delivered <+: next.source.delivered
      ∧ (window.exhausted = true → next.source = window.source)
  /-- A byte is refused exactly if it was released. -/
  discarded : ∀ index,
    (window.byteAt? index).map Prod.fst = some (.error (.access (.discarded index window.floor)))
      ↔ index < window.floor
  /-- Any other byte is the one that was given there. There is none only if the
  source has said that there is no more, and it fails only if the source fails,
  with its failure. -/
  byteAt : ∀ index outcome next, window.floor ≤ index →
    window.byteAt? index = some (outcome, next) →
    (∃ error, outcome = .error (.source error) ∧ window.source.failures.head? = some error)
      ∨ (∃ byte, outcome = .ok (some byte) ∧ next.source.delivered[index]? = some byte)
      ∨ outcome = .ok none ∧ next.exhausted = true ∧ next.source.delivered.length ≤ index
  /-- The bytes of a range are those that were given there, or else there is one
  of the reasons not to have them. -/
  slice : ∀ start stop, let next := (window.slice start stop).2
    Ranged window next start stop ((next.source.delivered.take stop).drop start)
      (window.slice start stop).1
  /-- If the beginning was not released, there are none exactly if the range is
  not in order, or the source has said that there is no more before its end. -/
  slice_invalid : ∀ start stop, window.floor ≤ start → let next := (window.slice start stop).2
    ((window.slice start stop).1 = .error (.access (.invalidRange start stop))
      ↔ stop < start ∨ next.exhausted = true ∧ next.source.delivered.length < stop)
  /-- The range itself is handed out when its bytes are. -/
  range : ∀ start stop, let next := (window.range start stop).2
    Ranged window next start stop ⟨start, stop⟩ (window.range start stop).1
  range_invalid : ∀ start stop, window.floor ≤ start → let next := (window.range start stop).2
    ((window.range start stop).1 = .error (.access (.invalidRange start stop))
      ↔ stop < start ∨ next.exhausted = true ∧ next.source.delivered.length < stop)
  /-- A range that was handed out has the bytes that were given there, until its
  beginning is released. One that was made up is invalid, unless it ends below the
  floor: then there is no answer. -/
  resolve : ∀ span, window.resolve? span =
    if span.start < window.floor then some (.error (.access (.stale span.start window.floor)))
    else if span.stop < window.floor then none
    else if span.start ≤ span.stop ∧ span.stop ≤ window.source.delivered.length then
      some (.ok ((window.source.delivered.take span.stop).drop span.start))
    else some (.error (.access (.invalidRange span.start span.stop)))
  /-- An operation fails with the first of the failures to come, and loses
  nothing: what was given before the failure has been added to what is held, and
  this is all. -/
  failed : ∀ (operation : Operation) error next,
    operation.perform window = some (.error (.source error), next) →
    next.floor = window.floor ∧ next.exhausted = false
      ∧ window.source.failures = error :: next.source.failures
      ∧ ∃ gained, next.source.delivered = window.source.delivered ++ gained
        ∧ next.held.toList = window.held.toList ++ gained

namespace Shows

/-- What an operation leaves given begins with what was given before. -/
theorem delivered_perform (h : window.Shows bytes) {operation : Operation}
    {outcome : Except Fault operation.Result}
    (e : operation.perform window = some (outcome, window')) :
    window.source.delivered <+: window'.source.delivered := by
  have next := h.proceeds e
  exact Source.delivered_prefix (next.shows.bytes_eq.trans h.bytes_eq.symm) next.given_le

/-- **A byte is refused exactly if it was released.** -/
theorem discarded_iff (h : window.Shows bytes) (index : Nat) :
    (window.byteAt? index).map Prod.fst = some (.error (.access (.discarded index window.floor)))
      ↔ index < window.floor := by
  rw [Option.map_eq_some_iff]
  constructor
  · rintro ⟨⟨outcome, next⟩, asked, rfl⟩
    by_contra hfloor
    rcases h.looked (Nat.not_lt.1 hfloor) (Operation.byteAt_of_perform asked) with
      ⟨error, eq⟩ | ⟨byte, eq, -⟩ | ⟨eq, -⟩ <;> simp at eq
  · intro below
    refine ⟨(.error (.access (.discarded index window.floor)), window), ?_, rfl⟩
    rw [byteAt?, if_pos below, Window.byteAt, if_pos below]

/-- A window that shows its input is faithful. -/
theorem faithful (h : window.Shows bytes)
    (ended : window.exhausted = true → window.source.Ended) : window.Faithful bytes where
  delivered_prefix := h.delivered_prefix
  held_eq := h.held_eq_drop
  buffered_eq := h.length_delivered.symm
  ended := ended
  gives room chunk source pulled := by
    have gave := Source.gave_of_pull (h.bytes_eq ▸ h.given_le) pulled
    refine ⟨gave.delivered_eq, ?_⟩
    rw [Source.delivered, gave.bytes_eq, h.bytes_eq]
    exact List.take_prefix _ _
  unanswered operation := Operation.perform_eq_none_iff
  proceeds operation outcome next performed :=
    ⟨(h.proceeds performed).floor_le, h.delivered_perform performed,
      fun exhausted => ((h.proceeds performed).ended exhausted).2⟩
  discarded := h.discarded_iff
  byteAt index outcome next hfloor asked := by
    have e := Operation.byteAt_of_perform asked
    rcases h.looked hfloor e with ⟨error, rfl⟩ | found | none
    · exact .inl ⟨error, rfl, (meets_byteAt e).head?_eq⟩
    · exact .inr (.inl found)
    · exact .inr (.inr none)
  slice start stop := h.sliced rfl
  slice_invalid start stop hfloor := (h.sliced rfl).invalid_iff hfloor
  range start stop := (h.ranged rfl).2
  range_invalid start stop hfloor := (h.ranged rfl).2.invalid_iff hfloor
  resolve span := by
    rw [resolve?_eq, h.length_delivered]
    split_ifs with released below inside
    · rfl
    · rfl
    · rw [h.between_eq_delivered (Nat.not_lt.1 released) inside.1 (h.length_delivered ▸ inside.2)]
    · rfl
  failed operation error next performed := by
    obtain ⟨position, ensured⟩ := exists_ensure_of_failed performed
    obtain ⟨reaches, -⟩ := h.ensure ensured
    refine ⟨reaches.floor_eq, more_of_ensure_error ensured, meets_ensure ensured, ?_⟩
    obtain ⟨gained, eq⟩ := h.delivered_perform performed
    refine ⟨gained, eq.symm, ?_⟩
    rw [reaches.shows.held_eq_drop, h.held_eq_drop, reaches.floor_eq, ← eq,
      List.drop_append_of_le_length]
    rw [h.length_delivered]
    exact Nat.le_add_right _ _

end Shows

/-- **A window keeps what it was given**, whatever was asked of it before and
however its source answers: with few bytes, with none, or with a failure. -/
theorem faithful_after (bytes : Array UInt8) (script : List Reply) (sizing : Sizing)
    (operations : List Operation) :
    ((ofSource { bytes, script } sizing).after operations).Faithful bytes := by
  have start : (ofSource { bytes, script } sizing).Shows bytes := .ofSource script sizing
  have whole := start.after operations
  exact whole.shows.faithful (whole.told nofun)

/-- **The largest index is not behind the end of the input**, short as the input may
be. There is no byte at the index before it, and for itself there is no answer: what
would have to be available are the bytes below the next index. -/
theorem byteAt?_largest :
    let window := ofSource { bytes := bytesOf "abc" }
    (window.byteAt? (Index.largest - 1)).map Prod.fst = some (.ok none)
      ∧ window.byteAt? Index.largest = none
      ∧ (window.byteAt? Index.largest).map Prod.fst ≠ some (.ok none) := by
  have nothing : (ofSource { bytes := bytesOf "abc" }).byteAt? Index.largest = none := by cbv
  refine ⟨by cbv, nothing, ?_⟩
  rw [nothing]
  exact (Option.some_ne_none _).symm

end Window

end TableDump
