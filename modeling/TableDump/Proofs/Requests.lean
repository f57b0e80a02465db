import Mathlib
import TableDump.Proofs.Lookahead

/-!
# No request is for nothing

A source that is asked for no bytes gives none, and its empty answer would be
taken for the end of the input. So the room that a request leaves must never be
nothing, whatever the sizes of the window are, and what is left of its capacity
is a matter of all that was done before: the window has grown, has been filled,
and has released bytes, which leaves the capacity as it is.

Making a position available is a loop of requests (`Window.requests`), and each
of them is made because a byte is missing. The capacity is then raised until a
byte fits, so there is room for one, and for no more than a step
(`Window.Request.Sound`). An answer is therefore progress: bytes, or the word of
the source itself that there are none, which it would have given with any other
room as well (`Source.pull_of_empty`).

That the capacity is never less than what is held is kept by each request and by
each release. So is its bound: it is raised only when what is held and a step do
not fit, and then to twice as much at most. What counts here is the greatest
length that the window has had so far, also in the middle of an operation, which
may take in much and release it at once (`Window.moments`).
-/

namespace TableDump

namespace Source

variable {source source' : Source} {room : Nat}

/-- A request that leaves room and is answered with nothing would be so whatever
room it left: nothing is left, or the answer was to be empty. -/
theorem read_of_empty (given_le : source.given ≤ source.bytes.size) (pos : 0 < room)
    (h : source.read room = (.ok #[], source')) (other : Nat) :
    source.read other = (.ok #[], source') := by
  have gave := gave_of_read given_le h
  have nothing : source'.given = source.given := by
    have size := congrArg Array.size gave.chunk_eq
    have := gave.given_le
    have := gave.given_le_size
    rw [Array.size_extract, Array.size_empty] at size
    omega
  unfold read at h ⊢
  split at h
  case h_1 =>
    obtain ⟨-, rfl⟩ := Prod.mk.inj h
    have none : source.left = 0 := by
      simp only at nothing
      omega
    simp [deliver, none]
  case h_2 limit script _ =>
    obtain ⟨-, rfl⟩ := Prod.mk.inj h
    have none : limit = 0 ∨ source.left = 0 := by
      simp only at nothing
      omega
    rcases none with none | none <;> simp [deliver, none]
  case h_3 => simp at h

/-- **An empty answer to a request that leaves room is the word of the source**:
it gives the same answer whatever room it is left. -/
theorem pull_of_empty (given_le : source.given ≤ source.bytes.size) (pos : 0 < room)
    (h : source.pull room = (.ok #[], source')) (other : Nat) :
    source.pull other = (.ok #[], source') :=
  @read_of_empty source.skipInterruptions _ _ given_le pos h other

end Source

namespace Window

/-! ## The requests of a loop -/

/-- The window whose capacity has been raised for a request. -/
def raised (window : Window) (wanted : Nat) : Window :=
  { window with capacity := window.grownCapacity wanted }

/-- A request of a window, to which `wanted` bytes are missing. -/
structure Request where
  window : Window
  wanted : Nat

namespace Request

/-- How many bytes it leaves room for. -/
def room (request : Request) : Nat := request.window.room request.wanted

/-- The window while it is being answered. -/
def pending (request : Request) : Window := request.window.raised request.wanted

/-- What comes of it. -/
def outcome (request : Request) : Except Fault Unit × Window :=
  request.window.refill request.wanted

end Request

/-- **The requests that make the bytes below `position` available**, one for each
round of the loop. -/
def requests (window : Window) (position : Nat) : List Request :=
  if window.buffered < position then
    match _more : window.exhausted with
    | true => []
    | false =>
      ⟨window, position - window.buffered⟩ ::
        match _refilled : window.refill (position - window.buffered) with
        | (.error _, _) => []
        | (.ok (), next) => next.requests position
  else []
termination_by window.effort
decreasing_by exact effort_refill_lt _more _refilled

variable {bytes : Array UInt8} {window next : Window} {position : Nat}

section

variable {wanted : Nat} {source : Source}

/-- A failure leaves what is held. -/
theorem refill_of_failed {error : SourceError}
    (pulled : window.source.pull (window.room wanted) = (.error error, source)) :
    window.refill wanted = (.error (.source error),
      { window with source, capacity := window.grownCapacity wanted }) := by
  rw [refill, pulled]

/-- An answer is added to it. -/
theorem refill_of_answered {chunk : Array UInt8}
    (pulled : window.source.pull (window.room wanted) = (.ok chunk, source)) :
    window.refill wanted = (.ok (), { window with
      source
      capacity := window.grownCapacity wanted
      held := window.held ++ chunk
      exhausted := chunk.isEmpty }) := by
  rw [refill, pulled]

/-- Room that was there stays so. -/
theorem capacity_le_grownCapacity (window : Window) (wanted : Nat) :
    window.capacity ≤ window.grownCapacity wanted := by
  unfold grownCapacity
  split <;> omega

/-- It is raised for as much as is wanted, so that it is not raised again. -/
theorem grownCapacity_raised (window : Window) (wanted : Nat) :
    (window.raised wanted).grownCapacity wanted = window.grownCapacity wanted := by
  unfold raised
  generalize grown : window.grownCapacity wanted = capacity
  unfold grownCapacity at grown ⊢
  split at grown <;> exact if_neg (by simp only; omega)

theorem refill_raised (window : Window) (wanted : Nat) :
    (window.raised wanted).refill wanted = window.refill wanted := by
  have room : (window.raised wanted).room wanted = window.room wanted := by
    rw [Window.room, Window.room, grownCapacity_raised]
    rfl
  rw [refill, refill, grownCapacity_raised, room]
  rfl

/-- The room of a request is behind what is held. -/
theorem held_add_room_le (held : window.held.size ≤ window.capacity) (wanted : Nat) :
    window.held.size + window.room wanted ≤ window.grownCapacity wanted := by
  have grown := window.capacity_le_grownCapacity wanted
  have : window.room wanted ≤ window.grownCapacity wanted - window.held.size := min_le_left _ _
  omega

end

theorem requests_of_le (enough : ¬ window.buffered < position) :
    window.requests position = [] := by
  rw [requests, if_neg enough]

theorem requests_of_exhausted (exhausted : window.exhausted = true) :
    window.requests position = [] := by
  rw [requests]
  split
  · split
    · rfl
    · simp_all
  · rfl

theorem requests_of_error {fault : Fault} (missing : window.buffered < position)
    (more : window.exhausted = false)
    (failed : window.refill (position - window.buffered) = (.error fault, next)) :
    window.requests position = [⟨window, position - window.buffered⟩] := by
  rw [requests, if_pos missing]
  split
  · simp_all
  · split
    · rfl
    · simp_all

theorem requests_of_ok (missing : window.buffered < position) (more : window.exhausted = false)
    (refilled : window.refill (position - window.buffered) = (.ok (), next)) :
    window.requests position
      = ⟨window, position - window.buffered⟩ :: next.requests position := by
  rw [requests, if_pos missing]
  split
  · simp_all
  · split
    · simp_all
    · simp_all

/-- **These are all the requests that are made**: what they leave of the source is
what is left of it. -/
theorem source_ensure (window : Window) (position : Nat) :
    (window.ensure position).2.source
      = (window.requests position).foldl (fun source request => (source.pull request.room).2)
          window.source := by
  have asked : ∀ (window : Window) (wanted : Nat),
      (window.refill wanted).2.source = (window.source.pull (window.room wanted)).2 := by
    intro window wanted
    unfold refill
    split <;> rename_i pulled <;> rw [pulled]
  fun_induction Window.ensure window position with
  | case1 window missing exhausted => rw [requests_of_exhausted exhausted, List.foldl_nil]
  | case2 window missing more fault failed refilled =>
    rw [requests_of_error missing more refilled, List.foldl_cons, List.foldl_nil]
    exact (congrArg (fun result => result.2.source) refilled).symm.trans (asked _ _)
  | case3 window missing more next refilled ih =>
    rw [requests_of_ok missing more refilled, List.foldl_cons, ih, Request.room, ← asked, refilled]
  | case4 window enough => rw [requests_of_le enough, List.foldl_nil]

namespace Request

/-- **A request that is not for nothing**, and that brings something unless the
source fails. -/
structure Sound (step : Nat) (request : Request) : Prop where
  /-- It leaves room for a byte. -/
  room_pos : 1 ≤ request.room
  /-- It leaves room for a step at most. -/
  room_le : request.room ≤ step
  /-- An answer brings bytes, or the end. -/
  progress : request.outcome.1 = .ok () →
    request.window.buffered < request.outcome.2.buffered ∨ request.outcome.2.exhausted = true
  /-- The end is the word of the source, whatever room it is left. -/
  told : request.outcome.2.exhausted = true →
    ∀ room, request.window.source.pull room = (.ok #[], request.outcome.2.source)

end Request

/-- **A request that is made while a byte is missing is sound.** -/
theorem Shows.sound (h : window.Shows bytes) (more : window.exhausted = false) {wanted : Nat}
    (missing : 0 < wanted) : Request.Sound window.step ⟨window, wanted⟩ := by
  have pos : 0 < window.room wanted := room_pos h.step_pos missing
  rcases pulled : window.source.pull (window.room wanted) with ⟨error | chunk, source⟩
  · refine ⟨pos, min_le_right _ _, ?_, ?_⟩ <;> rw [Request.outcome, refill_of_failed pulled]
    · exact nofun
    · exact fun exhausted => absurd (more.symm.trans exhausted) Bool.false_ne_true
  · refine ⟨pos, min_le_right _ _, ?_, ?_⟩ <;> rw [Request.outcome, refill_of_answered pulled]
    · intro _
      by_cases empty : chunk = #[]
      · exact .inr (by simpa using empty)
      · have : 0 < chunk.size := Array.size_pos_iff.2 empty
        refine .inl ?_
        simp only [Window.buffered, Array.size_append]
        omega
    · intro exhausted
      obtain rfl : chunk = #[] := by simpa using exhausted
      exact Source.pull_of_empty (h.bytes_eq ▸ h.given_le) pos pulled

/-- Each round of the loop makes a sound request, and a failure ends the loop. -/
theorem Shows.forall_requests (h : window.Shows bytes) (position : Nat) :
    ∀ request ∈ window.requests position, request.Sound window.step
      ∧ ∀ fault, request.outcome.1 = .error fault →
        window.ensure position = (.error fault, request.outcome.2) := by
  fun_induction Window.ensure window position with
  | case1 window missing exhausted => simp [requests_of_exhausted exhausted]
  | case2 window missing more fault failed refilled =>
    rw [requests_of_error missing more refilled]
    rintro request (_ | ⟨_, ⟨⟩⟩)
    refine ⟨h.sound more (Nat.sub_pos_of_lt missing), fun fault' failed' => ?_⟩
    simp only [Request.outcome] at failed' ⊢
    rw [refilled] at failed' ⊢
    obtain rfl := Except.error.inj failed'
    rfl
  | case3 window missing more next refilled ih =>
    obtain ⟨reaches, -⟩ := h.refill (Nat.sub_pos_of_lt missing) refilled
    rw [requests_of_ok missing more refilled]
    rintro request (_ | ⟨_, mem⟩)
    · refine ⟨h.sound more (Nat.sub_pos_of_lt missing), fun fault failed => ?_⟩
      rw [Request.outcome, refilled] at failed
      simp at failed
    · exact reaches.step_eq ▸ ih reaches.shows request mem
  | case4 window enough => simp [requests_of_le enough]

/-- The end is found by one of the requests. -/
theorem exists_request_of_exhausted (more : window.exhausted = false)
    (exhausted : (window.ensure position).2.exhausted = true) :
    ∃ request ∈ window.requests position, request.outcome.2.exhausted = true
      ∧ request.outcome.2.source = (window.ensure position).2.source := by
  fun_induction Window.ensure window position with
  | case1 window missing exhausted' => simp [exhausted'] at more
  | case2 window missing more' fault failed refilled =>
    exact absurd ((exhausted_of_refill_error refilled).trans more)
      (by simpa using exhausted)
  | case3 window missing more' next refilled ih =>
    rw [requests_of_ok missing more refilled]
    rcases found : next.exhausted with _ | _
    · obtain ⟨request, mem, told⟩ := ih found exhausted
      exact ⟨request, List.mem_cons_of_mem _ mem, told⟩
    · -- behind the end the loop stops
      refine ⟨_, List.mem_cons_self, ?_, ?_⟩ <;> rw [Request.outcome, refilled]
      · exact found
      · rw [ensure_of_exhausted found]
  | case4 window enough => exact absurd (more.symm.trans exhausted) Bool.false_ne_true

/-! ## The requests of an operation -/

/-- **A window that has released some bytes**, or none, and is else as it was. -/
structure Trims (window next : Window) : Prop where
  source_eq : next.source = window.source
  step_eq : next.step = window.step
  exhausted_eq : next.exhausted = window.exhausted
  buffered_eq : next.buffered = window.buffered
  /-- Releasing leaves the capacity as it is. -/
  capacity_eq : next.capacity = window.capacity
  held_le : next.held.size ≤ window.held.size

theorem Trims.refl (window : Window) : window.Trims window := ⟨rfl, rfl, rfl, rfl, rfl, le_rfl⟩

/-- **What comes of an operation** that needs the bytes below some position, or
none: the source fails to give them, or they were asked for, and then some bytes
may have been released. -/
inductive Comes {α : Type} (window : Window) :
    (asked : Option Nat) → Except Fault α × Window → Prop
  | unasked {outcome : Except Fault α} : Comes window none (outcome, window)
  | failed {position : Nat} {fault : Fault} {next : Window}
      (ensured : window.ensure position = (.error fault, next)) :
      Comes window (some position) (.error fault, next)
  | answered {position : Nat} {available : Bool} {between next : Window} {outcome : Except Fault α}
      (ensured : window.ensure position = (.ok available, between)) (trims : between.Trims next) :
      Comes window (some position) (outcome, next)

/-- Where nothing is asked for, the window stays as it is. -/
theorem Comes.of_none {α : Type} {performed : Except Fault α × Window}
    (h : window.Comes none performed) : performed.2 = window := by
  cases h with
  | unasked => rfl

/-- Else it is as making the position available has left it, but for what was
released; and a failure is passed on. -/
theorem Comes.of_some {α : Type} {performed : Except Fault α × Window}
    (h : window.Comes (some position) performed) :
    (window.ensure position).2.Trims performed.2
      ∧ ∀ fault next, window.ensure position = (.error fault, next) →
        performed = (.error fault, next) := by
  cases h with
  | failed ensured =>
    rw [ensured]
    refine ⟨.refl _, ?_⟩
    rintro fault next ⟨⟩
    rfl
  | answered ensured trims =>
    rw [ensured]
    exact ⟨trims, nofun⟩

/-- The position that is made available for a range, if it comes to that. -/
def rangeAsks (window : Window) (start stop : Nat) : Option Nat :=
  if start < window.floor ∨ stop < start then none else some stop

theorem comes_range (window : Window) (start stop : Nat) :
    window.Comes (window.rangeAsks start stop) (window.range start stop) := by
  unfold range
  split
  case isTrue below =>
    rw [rangeAsks, if_pos (.inl below)]
    exact .unasked
  case isFalse hfloor =>
    split
    case isTrue inverted =>
      rw [rangeAsks, if_pos (.inr inverted)]
      exact .unasked
    case isFalse ordered =>
      rw [rangeAsks, if_neg (by omega)]
      split
      all_goals rename_i ensured
      · exact .failed ensured
      · exact .answered ensured (.refl _)
      · exact .answered ensured (.refl _)

theorem comes_slice (window : Window) (start stop : Nat) :
    window.Comes (window.rangeAsks start stop) (window.slice start stop) := by
  have ranged := window.comes_range start stop
  generalize window.rangeAsks start stop = asked at ranged ⊢
  unfold slice
  split
  case h_1 handed =>
    rw [handed] at ranged
    cases ranged with
    | unasked => exact .unasked
    | failed ensured => exact .failed ensured
    | answered ensured trims => exact .answered ensured trims
  case h_2 handed =>
    rw [handed] at ranged
    cases ranged with
    | unasked => exact .unasked
    | answered ensured trims => exact .answered ensured trims

namespace Operation

/-- The position that an operation makes available, if it comes to that. -/
def asks : Operation → Window → Option Nat
  | ensure position, _ => some position
  | byteAt index, window =>
    if index < window.floor ∨ Index.largest ≤ index then none else some (index + 1)
  | slice start stop, window => window.rangeAsks start stop
  | range start stop, window => window.rangeAsks start stop
  | resolve _, _ => none
  | discardBefore position, _ => some position

/-- The requests that are made by an operation. -/
def requests (operation : Operation) (window : Window) : List Request :=
  match operation.asks window with
  | some position => window.requests position
  | none => []

theorem comes {operation : Operation} {outcome : Except Fault operation.Result}
    (e : operation.perform window = some (outcome, next)) :
    window.Comes (operation.asks window) (outcome, next) := by
  cases operation with
  | ensure position =>
    have ensured : window.ensure position = (outcome, next) := Option.some.inj e
    rcases outcome with fault | available
    · exact .failed ensured
    · exact .answered ensured (.refl _)
  | byteAt index =>
    have looked := byteAt_of_perform e
    have answered : ¬ (window.floor ≤ index ∧ Index.largest ≤ index) := fun beyond =>
      Option.some_ne_none _ (e.symm.trans (perform_eq_none_iff.2 beyond))
    show window.Comes (if _ then _ else _) (outcome, next)
    unfold Window.byteAt at looked
    split at looked
    case isTrue below =>
      obtain ⟨rfl, rfl⟩ := Prod.mk.inj looked
      rw [if_pos (.inl below)]
      exact .unasked
    case isFalse hfloor =>
      rw [if_neg (by omega)]
      split at looked
      all_goals
        rename_i ensured
        obtain ⟨rfl, rfl⟩ := Prod.mk.inj looked
      · exact .failed ensured
      · exact .answered ensured (.refl _)
      · exact .answered ensured (.refl _)
  | range start stop => exact (Option.some.inj e) ▸ window.comes_range start stop
  | slice start stop => exact (Option.some.inj e) ▸ window.comes_slice start stop
  | resolve span =>
    obtain ⟨-, rfl⟩ := perform_resolve_eq_some_iff.1 e
    exact .unasked
  | discardBefore position =>
    have released : window.discardBefore position = (outcome, next) :=
      discardBefore_of_discardBefore? e
    show window.Comes (some position) (outcome, next)
    rw [← released]
    unfold Window.discardBefore
    split
    all_goals rename_i between ensured
    · exact .failed ensured
    · split
      · exact .answered ensured (.refl _)
      · rename_i far
        refine .answered ensured ⟨rfl, rfl, rfl, ?_, rfl, ?_⟩
        all_goals
          simp only [buffered, Array.size_extract]
          omega

/-- A position that the source fails to give is the outcome. -/
theorem perform_of_failed {operation : Operation} {fault : Fault}
    (asked : operation.asks window = some position)
    (failed : window.ensure position = (.error fault, next)) :
    operation.perform window = some (.error fault, next) := by
  rcases performed : operation.perform window with _ | ⟨outcome, other⟩
  · have unanswered := perform_eq_none_iff.1 performed
    cases operation with
    | byteAt index => cases asked.symm.trans (if_pos (.inr unanswered.2))
    | resolve span => cases asked
    | discardBefore wanted =>
      obtain rfl := Option.some.inj asked
      obtain ⟨available, _, ensured, -⟩ := unanswered
      cases failed.symm.trans ensured
    | ensure wanted | slice start stop | range start stop => exact unanswered.elim
  · have comes := comes performed
    rw [asked] at comes
    rw [comes.of_some.2 _ _ failed]

end Operation

/-- **What a window asks of its source for an operation.** -/
structure Asking (step : Nat) (window : Window) (operation : Operation) : Prop where
  /-- These are all the requests: what they leave of the source is what is left of
  it. -/
  all : ∀ outcome next, operation.perform window = some (outcome, next) → next.source
    = (operation.requests window).foldl (fun source request => (source.pull request.room).2)
        window.source
  /-- Each of them leaves room for a byte at least and for a step at most, -/
  room : ∀ request ∈ operation.requests window, 1 ≤ request.room ∧ request.room ≤ step
  /-- and brings bytes or the end, or ends the operation. -/
  round : ∀ request ∈ operation.requests window,
    (∃ fault, request.outcome.1 = .error fault
        ∧ operation.perform window = some (.error fault, request.outcome.2))
      ∨ request.outcome.1 = .ok ()
        ∧ (request.window.buffered < request.outcome.2.buffered
          ∨ request.outcome.2.exhausted = true)
  /-- They reach no more than a step further than is wanted. -/
  reach : ∀ position, operation.asks window = some position → ∀ outcome next,
    operation.perform window = some (outcome, next) →
    next.buffered ≤ max window.buffered (position + step - 1)
  /-- The end is found only by a request that the source answers with nothing, as it
  would whatever room it was left. -/
  ended : window.exhausted = false → ∀ outcome next,
    operation.perform window = some (outcome, next) → next.exhausted = true →
    ∃ request ∈ operation.requests window, ∀ room,
      request.window.source.pull room = (.ok #[], next.source)

/-- **No operation asks for nothing.** -/
theorem Shows.asking (h : window.Shows bytes) (operation : Operation) :
    window.Asking window.step operation := by
  rcases asked : operation.asks window with _ | position
  · have none : operation.requests window = [] := by rw [Operation.requests, asked]
    have still : ∀ outcome next, operation.perform window = some (outcome, next) →
        next = window := fun outcome next performed => (asked ▸ Operation.comes performed).of_none
    refine ⟨?_, ?_, ?_, ?_, ?_⟩
    · intro outcome next performed
      rw [none, still outcome next performed, List.foldl_nil]
    · simp [none]
    · simp [none]
    · simp [asked]
    · intro more outcome next performed exhausted
      rw [still outcome next performed] at exhausted
      exact absurd (more.symm.trans exhausted) Bool.false_ne_true
  · have some : operation.requests window = window.requests position := by
      rw [Operation.requests, asked]
    have trims : ∀ outcome next, operation.perform window = .some (outcome, next) →
        (window.ensure position).2.Trims next :=
      fun outcome next performed => (asked ▸ Operation.comes performed).of_some.1
    have sound := h.forall_requests position
    refine ⟨?_, ?_, ?_, ?_, ?_⟩
    · intro outcome next performed
      rw [some, (trims outcome next performed).source_eq, source_ensure]
    · rw [some]
      exact fun request mem => ⟨(sound request mem).1.room_pos, (sound request mem).1.room_le⟩
    · rw [some]
      intro request mem
      rcases answer : request.outcome.1 with fault | _
      · exact .inl ⟨fault, rfl,
          Operation.perform_of_failed asked ((sound request mem).2 fault answer)⟩
      · exact .inr ⟨rfl, (sound request mem).1.progress answer⟩
    · intro _ same outcome next performed
      obtain rfl := Option.some.inj (asked.symm.trans same)
      have reach := (asked_ensure (show window.ensure position = (_, _) from rfl)).buffered_lt
      rw [(trims outcome next performed).buffered_eq]
      have := h.step_pos
      omega
    · intro more outcome next performed exhausted
      rw [(trims outcome next performed).exhausted_eq] at exhausted
      obtain ⟨request, mem, ended, source_eq⟩ := exists_request_of_exhausted more exhausted
      rw [some, (trims outcome next performed).source_eq]
      exact ⟨request, mem, fun room => source_eq ▸ (sound request mem).1.told ended room⟩

/-! ## Capacity -/

/-- **The windows that some operations lead through**: those between them, and for
each of their requests the one that makes it and the one that it leaves. -/
def moments : List Operation → Window → List Window
  | [], window => [window]
  | operation :: operations, window =>
    window :: ((operation.requests window).flatMap
        (fun request => [request.pending, request.outcome.2])
      ++ match operation.perform window with
        | none => []
        | some (_, next) => next.moments operations)

/-- The greatest length of some windows. -/
def greatest (windows : List Window) : Nat := (windows.map (·.held.size)).foldr max 0

/-- **One moment leads to the next**: the capacity is raised, a request is made, or
bytes are released. -/
inductive Leads (window : Window) : Window → Prop
  | raises (wanted : Nat) : Leads window (window.raised wanted)
  | refills (wanted : Nat) : Leads window (window.refill wanted).2
  | trims {next : Window} (trims : window.Trims next) : Leads window next

/-- Raising the capacity, and then making the request, leads to what comes of it. -/
theorem isChain_request (window : Window) (wanted : Nat) {later : List Window}
    (chain : List.IsChain Leads ((window.refill wanted).2 :: later)) :
    List.IsChain Leads
      (window :: window.raised wanted :: (window.refill wanted).2 :: later) := by
  have refills : Leads (window.raised wanted) (window.refill wanted).2 :=
    window.refill_raised wanted ▸ .refills wanted
  exact .cons_cons (.raises wanted) (.cons_cons refills chain)

/-- The requests that make a position available lead to the window in which it
is. -/
theorem isChain_requests {later : List Window}
    (chain : List.IsChain Leads ((window.ensure position).2 :: later)) :
    List.IsChain Leads (window :: ((window.requests position).flatMap
      (fun request => [request.pending, request.outcome.2]) ++ later)) := by
  fun_induction Window.ensure window position with
  | case1 window missing exhausted => rwa [requests_of_exhausted exhausted]
  | case2 window missing more fault next failed =>
    rw [requests_of_error missing more failed]
    refine window.isChain_request (position - window.buffered) ?_
    rwa [failed]
  | case3 window missing more next refilled ih =>
    rw [requests_of_ok missing more refilled]
    refine window.isChain_request (position - window.buffered) ?_
    rw [refilled]
    exact ih chain
  | case4 window enough => rwa [requests_of_le enough]

/-- **Each moment of a run leads to the next.** -/
theorem isChain_moments (operations : List Operation) (window : Window) :
    ∃ later, window.moments operations = window :: later
      ∧ List.IsChain Leads (window :: later) := by
  induction operations generalizing window with
  | nil => exact ⟨[], rfl, List.isChain_singleton _⟩
  | cons operation operations ih =>
    refine ⟨_, rfl, ?_⟩
    rcases performed : operation.perform window with _ | ⟨outcome, next⟩
    · -- the run ends with the requests of this operation
      rw [Operation.requests]
      split
      · exact isChain_requests (List.isChain_singleton _)
      · exact List.isChain_singleton _
    · obtain ⟨later, moments_eq, chain⟩ := ih next
      have comes := Operation.comes performed
      dsimp only
      rw [moments_eq]
      rcases asked : operation.asks window with _ | position <;> rw [asked] at comes
      · obtain rfl : next = window := comes.of_none
        rw [Operation.requests, asked]
        exact List.isChain_cons_cons.2 ⟨.trims (.refl next), chain⟩
      · rw [Operation.requests, asked]
        exact isChain_requests (List.isChain_cons_cons.2 ⟨.trims comes.of_some.1, chain⟩)

/-- **The capacity is enough for what is held, and is bounded**, where no window so
far has held more than `most` bytes. -/
structure Roomy (sizing : Sizing) (most : Nat) (window : Window) : Prop where
  step_eq : window.step = max sizing.step 1
  most_ge : window.held.size ≤ most
  held_le : window.held.size ≤ window.capacity
  capacity_le : window.capacity
    ≤ max (max sizing.initialCapacity 8) (2 * (most + max sizing.step 1))

namespace Roomy

variable {sizing : Sizing} {most more : Nat}

theorem mono (h : window.Roomy sizing most) (le : most ≤ more) : window.Roomy sizing more :=
  ⟨h.step_eq, h.most_ge.trans le, h.held_le, by have := h.capacity_le; omega⟩

/-- **The capacity is raised to twice as much at most** as what is held and a step
take: it is raised only if they do not fit in. -/
theorem raised (h : window.Roomy sizing most) (wanted : Nat) :
    (window.raised wanted).Roomy sizing most := by
  obtain ⟨step_eq, most_ge, held_le, capacity_le⟩ := h
  refine ⟨step_eq, most_ge, held_le.trans (window.capacity_le_grownCapacity wanted), ?_⟩
  show window.grownCapacity wanted ≤ _
  unfold grownCapacity
  split <;> omega

/-- **What a request brings fits in.** -/
theorem refill (h : window.Roomy sizing most) (wanted : Nat) :
    (window.refill wanted).2.Roomy sizing (max most (window.refill wanted).2.held.size) := by
  have room := held_add_room_le h.held_le wanted
  obtain ⟨step_eq, most_ge, held_le, capacity_le⟩ := h.raised wanted
  rcases pulled : window.source.pull (window.room wanted) with ⟨error | chunk, source⟩
  · rw [refill_of_failed pulled]
    exact ⟨step_eq, le_max_right _ _, held_le, capacity_le.trans (by omega)⟩
  · rw [refill_of_answered pulled]
    have size := Source.size_of_pull pulled
    refine ⟨step_eq, le_max_right _ _, ?_, capacity_le.trans (by omega)⟩
    show (window.held ++ chunk).size ≤ window.grownCapacity wanted
    rw [Array.size_append]
    omega

/-- **Each moment has room**, if the one before has. -/
theorem leads (h : window.Roomy sizing most) (leads : window.Leads next) :
    next.Roomy sizing (max most next.held.size) := by
  cases leads with
  | raises wanted => exact (h.raised wanted).mono (le_max_left _ _)
  | refills wanted => exact h.refill wanted
  | trims trims =>
    have held := trims.held_le
    obtain ⟨step_eq, most_ge, held_le, capacity_le⟩ := h
    refine ⟨trims.step_eq.trans step_eq, le_max_right _ _, ?_, ?_⟩
      <;> rw [trims.capacity_eq] <;> omega

/-- **And all moments of a run**, as far as it has gone. -/
theorem of_isChain (h : window.Roomy sizing most) {later : List Window}
    (chain : List.IsChain Leads (window :: later)) {past : List Window} (begun : past <+: later) :
    ∀ moment ∈ past, moment.Roomy sizing (max most (greatest past)) := by
  induction later generalizing window most past with
  | nil => simp [List.prefix_nil.1 begun]
  | cons next later ih =>
    rcases past with _ | ⟨first, past⟩
    · simp
    · obtain ⟨rfl, begun'⟩ := List.cons_prefix_cons.1 begun
      obtain ⟨leads, chain⟩ := List.isChain_cons_cons.1 chain
      have here := h.leads leads
      have greatest_cons : greatest (first :: past) = max first.held.size (greatest past) := rfl
      rw [greatest_cons, ← max_assoc]
      rintro moment (_ | ⟨_, mem⟩)
      · exact here.mono (le_max_left _ _)
      · exact ih here chain begun' moment mem

/-- So is each moment of a run that starts with nothing. -/
theorem forall_moments (h : window.Roomy sizing 0) (operations : List Operation)
    {past : List Window} (begun : past <+: window.moments operations) :
    ∀ moment ∈ past, moment.Roomy sizing (greatest past) := by
  obtain ⟨later, moments_eq, chain⟩ := isChain_moments operations window
  rcases past with _ | ⟨first, past⟩
  · simp
  · obtain ⟨rfl, begun'⟩ := List.cons_prefix_cons.1 (moments_eq ▸ begun)
    have greatest_le : max 0 (greatest past) ≤ greatest (first :: past) :=
      (Nat.zero_max _).trans_le (le_max_right _ _)
    rintro moment (_ | ⟨_, mem⟩)
    · exact h.mono (Nat.zero_le _)
    · exact (h.of_isChain chain begun' moment mem).mono greatest_le

end Roomy

/-- The last moment of a run is what comes of it. -/
theorem after_mem_moments (operations : List Operation) (window : Window) :
    window.after operations ∈ window.moments operations := by
  induction operations generalizing window with
  | nil => exact List.mem_singleton_self _
  | cons operation operations ih =>
    rw [after, moments]
    rcases operation.perform window with _ | ⟨outcome, next⟩
    · exact List.mem_cons_self
    · exact List.mem_cons_of_mem _ (List.mem_append_right _ (ih next))

/-- **What a window asks of its source, and how much room it takes.** -/
structure Provides (sizing : Sizing) (start : Window) (operations : List Operation) : Prop where
  /-- At any moment there is capacity for what is held, -/
  held_le : ∀ window ∈ start.moments operations, window.held.size ≤ window.capacity
  /-- and no more of it than the greatest length so far accounts for. -/
  capacity_le : ∀ past, past <+: start.moments operations → ∀ window ∈ past,
    window.capacity ≤ max (max sizing.initialCapacity 8) (2 * (greatest past + max sizing.step 1))
  /-- Whatever is asked for next, no request is for nothing. -/
  asking : ∀ operation, (start.after operations).Asking (max sizing.step 1) operation

/-- **No request is for nothing**, so that no end is made up: whatever the sizes of
a window are, whatever was asked of it, and whatever its source answers. Each
request leaves room for a byte, and for a step at most, and the capacity of the
window is bounded by twice what it has ever held and a step. -/
theorem provides_after (bytes : Array UInt8) (script : List Reply) (sizing : Sizing)
    (operations : List Operation) :
    (ofSource { bytes, script } sizing).Provides sizing operations := by
  have shows : (ofSource { bytes, script } sizing).Shows bytes := .ofSource script sizing
  have start : (ofSource { bytes, script } sizing).Roomy sizing 0 :=
    ⟨rfl, le_rfl, Nat.zero_le _, le_max_of_le_left (le_max_left _ _)⟩
  have roomy := fun moment mem => start.forall_moments operations (List.prefix_refl _) moment mem
  refine ⟨?_, ?_, ?_⟩
  · exact fun window mem => (roomy window mem).held_le
  · intro past begun window mem
    exact (start.forall_moments operations begun window mem).capacity_le
  · intro operation
    have step_eq := (roomy _ (after_mem_moments operations _)).step_eq
    exact step_eq ▸ (shows.after operations).shows.asking operation

/-- Without any room to begin with, a window asks for one byte at a time. -/
example : ((ofSource { bytes := bytesOf "abc" } { initialCapacity := 0, step := 0 }).requests 2).map
    Request.room = [1, 1] := by cbv

end Window

end TableDump
