import TableDump.Index
import TableDump.Source

/-!
# A window that moves over a source

Positions are absolute: 0 is the first byte the source ever gave. The window
holds the bytes from its `floor` to `buffered`, asks the source for more when a
position beyond is wanted, and releases bytes at its lower end when told to.
So at any time, if `C` is what the source has given out, the window holds
exactly `C` from the floor on.

Two sizes govern it. `step` is the most that one request asks for, and also
the least that is worth releasing. `capacity` is the room set aside for held
bytes: a request also asks for no more than fits in it, and it grows when less
room is left than the next request needs. How much is asked for shows in what
is buffered, so the rule of growth is part of what the window does.

Asking for a position is a loop of requests (`Window.ensure`). It ends because
each answered request either leaves the source with fewer bytes to give or is
the one that finds it exhausted (`Window.effort`).

Numbers end, and whoever asks a window for something can choose one that is too
large, or a range that is not in order. So looking at a byte, looking up a range
and releasing may have no answer (`Window.byteAt?`, `Window.resolve?`,
`Window.discardBefore?`). A cursor stands where bytes are, and may look and release
as if numbers did not end (`Window.byteAt`, `Window.discardBefore`).
-/

namespace TableDump

namespace Window

/-- The sizes of a window. -/
structure Sizing where
  /-- Room for held bytes at the start. -/
  initialCapacity : Nat := 0x10000
  /-- The most that one request asks for. -/
  step : Nat := 0x8000
  deriving DecidableEq, Repr

/-- Sizes of which neither is zero. -/
def Sizing.positive? (initialCapacity step : Nat) : Option Sizing :=
  if initialCapacity = 0 ∨ step = 0 then none else some { initialCapacity, step }

/-- A range of positions, to be looked at later. It need not be in order. -/
structure Span where
  start : Nat
  stop : Nat
  deriving DecidableEq, Repr

/-- How many positions a range has. -/
def Span.length (span : Span) : Nat := span.stop - span.start

/-- Does the range hold no position? -/
def Span.isEmpty (span : Span) : Bool := span.start == span.stop

/-- What is added to the length of a window whose source may have more. -/
def unboundedLength : Nat := 0x7FFFFFFFFFFFFFFF

end Window

/-- A window over a source. -/
structure Window where
  /-- Where the bytes come from. -/
  source : Source
  /-- The most that one request asks for. -/
  step : Nat
  /-- Room set aside for held bytes. -/
  capacity : Nat
  /-- The bytes held; the first of them is at position `floor`. -/
  held : Array UInt8 := #[]
  /-- Everything below has been released. -/
  floor : Nat := 0
  /-- Has the source answered that it has no more? -/
  exhausted : Bool := false

namespace Window

/-- A window at the start of `source`. A step of zero would ask for nothing
and take the empty answer for the end, so it counts as one. -/
def ofSource (source : Source) (sizing : Sizing := {}) : Window :=
  { source, step := max sizing.step 1, capacity := sizing.initialCapacity }

/-- The position after the last held byte. -/
def buffered (window : Window) : Nat := window.floor + window.held.size

/-- The length of the input, as far as it is known: while the source may have
more, a length that no input reaches. -/
def length (window : Window) : Nat :=
  if window.exhausted then window.buffered
  else min (window.buffered + unboundedLength) Index.largest

/-- Is it known that the input is empty? -/
def isEmpty (window : Window) : Bool := window.exhausted && window.buffered == 0

/-! ## Asking for more -/

/-- The capacity with which the next request is made, when `wanted` bytes are
still missing: more room than before if what is left does not suffice for the
request. -/
def grownCapacity (window : Window) (wanted : Nat) : Nat :=
  if window.capacity - window.held.size < min wanted window.step then
    max (2 * window.capacity) (max (window.held.size + max window.capacity window.step) 8)
  else window.capacity

/-- How many bytes the next request asks for, when `wanted` are missing. -/
def room (window : Window) (wanted : Nat) : Nat :=
  min (window.grownCapacity wanted - window.held.size) window.step

/-- **One answered request.** An answer without bytes means that the source is
exhausted. A failure leaves the held bytes as they are. -/
def refill (window : Window) (wanted : Nat) : Except Fault Unit × Window :=
  match window.source.pull (window.room wanted) with
  | (.error error, source) =>
    (.error (.source error), { window with source, capacity := window.grownCapacity wanted })
  | (.ok chunk, source) =>
    (.ok (), { window with
      source
      capacity := window.grownCapacity wanted
      held := window.held ++ chunk
      exhausted := chunk.isEmpty })

/-- A bound on the number of answered requests that can still bring something
new: bytes, or the news that there are none. -/
def effort (window : Window) : Nat :=
  window.source.left + if window.exhausted then 0 else 1

/-- **An answered request is progress**, whatever the answer is. -/
theorem effort_refill_lt {window window' : Window} {wanted : Nat}
    (more : window.exhausted = false) (h : window.refill wanted = (.ok (), window')) :
    window'.effort < window.effort := by
  unfold refill at h
  split at h <;> simp at h
  rename_i chunk source pulled
  have left := Source.left_of_pull pulled
  subst h
  by_cases empty : chunk = #[]
  · subst empty
    simp only [Array.size_empty] at left
    simp [effort, more]
    omega
  · have : 0 < chunk.size := Array.size_pos_iff.2 empty
    simp [effort, more, empty]
    omega

/-- **Makes the bytes below `position` available**, asking the source as often
as needed. The answer is whether they are; it is `false` only when the source
has ended before. -/
def ensure (window : Window) (position : Nat) : Except Fault Bool × Window :=
  if window.buffered < position then
    match _more : window.exhausted with
    | true => (.ok false, window)
    | false =>
      match _refilled : window.refill (position - window.buffered) with
      | (.error fault, window') => (.error fault, window')
      | (.ok (), window') => window'.ensure position
  else (.ok true, window)
termination_by window.effort
decreasing_by exact effort_refill_lt _more _refilled

/-- Making bytes available never takes more effort than there was. -/
theorem effort_ensure_le {window window' : Window} {position : Nat} {answer : Bool}
    (h : window.ensure position = (.ok answer, window')) :
    window'.effort ≤ window.effort := by
  fun_induction ensure window position with
  | case1 | case2 | case4 => simp_all
  | case3 window _ more window'' refilled ih =>
    exact Nat.le_trans (ih h) (Nat.le_of_lt (effort_refill_lt more refilled))

/-- Making bytes available that were not takes effort. -/
theorem effort_ensure_lt {window window' : Window} {position : Nat}
    (missing : window.buffered < position)
    (h : window.ensure position = (.ok true, window')) :
    window'.effort < window.effort := by
  rw [ensure] at h
  rw [if_pos missing] at h
  split at h
  · simp at h
  · split at h
    · simp at h
    · exact Nat.lt_of_le_of_lt (effort_ensure_le h) (effort_refill_lt ‹_› ‹_›)

/-! ## Looking -/

/-- The byte at `index`, or nothing if the input ends before it. Every index has a
next one here. -/
def byteAt (window : Window) (index : Nat) : Except Fault (Option UInt8) × Window :=
  if index < window.floor then
    (.error (.access (.discarded index window.floor)), window)
  else
    match window.ensure (index + 1) with
    | (.error fault, window) => (.error fault, window)
    | (.ok false, window) => (.ok none, window)
    | (.ok true, window) => (.ok window.held[index - window.floor]?, window)

/-- **The byte at `index` as it is looked at**: the bytes below the next index are
made available, if there is a next one. -/
def byteAt? (window : Window) (index : Nat) : Option (Except Fault (Option UInt8) × Window) :=
  if index < window.floor then some (window.byteAt index)
  else do
    let _ ← Index.add? index 1
    return window.byteAt index

/-- **Only behind the end of all numbers there is no answer**, and what was
released is refused even there. -/
theorem byteAt?_eq (window : Window) (index : Nat) :
    window.byteAt? index = if window.floor ≤ index ∧ Index.largest ≤ index then none
      else some (window.byteAt index) := by
  unfold byteAt?
  by_cases released : index < window.floor
  · rw [if_pos released, if_neg (by omega)]
  · rw [if_neg released]
    by_cases last : Index.largest ≤ index
    · rw [if_pos ⟨by omega, last⟩, Index.add?_eq_none (by omega)]
      rfl
    · rw [if_neg (by omega), Index.add?_eq_some (by omega)]
      rfl

/-- Makes a range available and gives it back as something that can be looked
at later. -/
def range (window : Window) (start stop : Nat) : Except Fault Span × Window :=
  if start < window.floor then
    (.error (.access (.discarded start window.floor)), window)
  else if stop < start then (.error (.access (.invalidRange start stop)), window)
  else
    match window.ensure stop with
    | (.error fault, window) => (.error fault, window)
    | (.ok false, window) => (.error (.access (.invalidRange start stop)), window)
    | (.ok true, window) => (.ok { start, stop }, window)

/-- The held bytes between two positions. -/
def between (window : Window) (start stop : Nat) : Bytes :=
  (window.held.extract (start - window.floor) (stop - window.floor)).toList

/-- The bytes of a range. -/
def slice (window : Window) (start stop : Nat) : Except Fault Bytes × Window :=
  match window.range start stop with
  | (.error fault, window) => (.error fault, window)
  | (.ok span, window) => (.ok (window.between span.start span.stop), window)

/-- How far a position is from the floor. There are no negative distances, so a
position below the floor has none. -/
def offset? (window : Window) (position : Nat) : Option Nat :=
  if window.floor ≤ position then some (position - window.floor) else none

/-- **The bytes of a range that was made available before**, if they have not
been released since. They are found by the distances of the two ends from the
floor, and whether the range has been released is asked of its beginning only. So
an end that lies below the floor has no distance, and then there is no answer, not
even a fault. The range may also be any other pair of positions: it is invalid if
it is not in order or passes what is held. -/
def resolve? (window : Window) (span : Span) : Option (Except Fault Bytes) :=
  if span.start < window.floor then some (.error (.access (.stale span.start window.floor)))
  else do
    let first ← window.offset? span.start
    let last ← window.offset? span.stop
    return if first ≤ last ∧ last ≤ window.held.size then
        .ok (window.held.extract first last).toList
      else .error (.access (.invalidRange span.start span.stop))

/-- **There is an answer unless the range ends below the floor** and begins
elsewhere, and then it is the one that the positions themselves give. -/
theorem resolve?_eq (window : Window) (span : Span) :
    window.resolve? span =
      if span.start < window.floor then some (.error (.access (.stale span.start window.floor)))
      else if span.stop < window.floor then none
      else if span.start ≤ span.stop ∧ span.stop ≤ window.buffered then
        some (.ok (window.between span.start span.stop))
      else some (.error (.access (.invalidRange span.start span.stop))) := by
  unfold resolve? offset?
  by_cases released : span.start < window.floor
  · rw [if_pos released, if_pos released]
  · rw [if_neg released, if_neg released, if_pos (by omega)]
    by_cases below : span.stop < window.floor
    · rw [if_neg (by omega), if_pos below]
      rfl
    · have inside : (span.start - window.floor ≤ span.stop - window.floor
          ∧ span.stop - window.floor ≤ window.held.size)
          ↔ span.start ≤ span.stop ∧ span.stop ≤ window.buffered := by
        rw [buffered]
        omega
      rw [if_pos (by omega), if_neg below]
      simp only [Option.bind_eq_bind, Option.bind_some, inside]
      split <;> rfl

/-- Up to `count` bytes from `start` on, behind those in `before`, which are in
reverse order. A failure of the source ends them as the end of input does. -/
def previewOnto (window : Window) (before : Bytes) (start : Nat) :
    (count : Nat) → Bytes × Window
  | 0 => (before.reverse, window)
  | count + 1 =>
    match window.byteAt start with
    | (.ok (some byte), window) => window.previewOnto (byte :: before) (start + 1) count
    | (_, window) => (before.reverse, window)

/-- Up to `count` bytes from `start` on, for showing what stands there. -/
def preview (window : Window) (start count : Nat) : Bytes × Window :=
  window.previewOnto [] start count

/-! ## Searching -/

/-- **Searches from `start` to the end of the input.** `find` looks in an array
from an index on. What is held is searched first; if there is nothing, one more
byte is asked for and the search goes on `overlap` bytes before the end of what
was searched, so that an occurrence with one part on either side is found.
Nothing is searched where nothing is held. -/
def search (window : Window) (find : Array UInt8 → Nat → Option Nat) (overlap start : Nat) :
    Except Fault (Option Nat) × Window :=
  match if start < window.buffered then find window.held (start - window.floor) else none with
  | some index => (.ok (some (window.floor + index)), window)
  | none =>
    match _ensured : window.ensure (window.buffered + 1) with
    | (.error fault, window') => (.error fault, window')
    | (.ok false, window') => (.ok none, window')
    | (.ok true, window') =>
      window'.search find overlap
        (if start < window.buffered then max start (window.buffered - overlap) else start)
termination_by window.effort
decreasing_by exact effort_ensure_lt (Nat.lt_succ_self _) _ensured

/-! ## Releasing -/

/-- **Releases what is below `position`**, if that is more than a step; then
`position` is the new floor. A step behind the floor there is a position here. -/
def discardBefore (window : Window) (position : Nat) : Except Fault Unit × Window :=
  match window.ensure position with
  | (.error fault, window) => (.error fault, window)
  | (.ok _, window) =>
    if position ≤ window.floor + window.step then (.ok (), window)
    else
      let floor := min position window.buffered
      (.ok (), { window with
        held := window.held.extract (floor - window.floor) window.held.size, floor })

/-- **Releases what is below `position`, as it is done**: the bytes below it are made
available, and it is compared with the position that is a step behind the floor, if
there is one. -/
def discardBefore? (window : Window) (position : Nat) : Option (Except Fault Unit × Window) :=
  match window.ensure position with
  | (.error _, _) => some (window.discardBefore position)
  | (.ok _, next) => do
    let _ ← Index.add? next.floor next.step
    return window.discardBefore position

theorem discardBefore_of_discardBefore? {window : Window} {position : Nat}
    {released : Except Fault Unit × Window} (h : window.discardBefore? position = some released) :
    window.discardBefore position = released := by
  unfold discardBefore? at h
  split at h
  · exact Option.some.inj h
  · exact Option.some.inj (Index.of_add? h).2

/-- **There is no answer only if no position is a step behind the floor.** -/
theorem discardBefore?_eq_none_iff {window : Window} {position : Nat} :
    window.discardBefore? position = none
      ↔ ∃ available next, window.ensure position = (.ok available, next)
        ∧ Index.largest < next.floor + next.step := by
  unfold discardBefore?
  split
  case h_1 failed =>
    refine iff_of_false (Option.some_ne_none _) ?_
    rintro ⟨available, next, ensured, -⟩
    cases failed.symm.trans ensured
  case h_2 available next ensured =>
    rcases Nat.lt_or_ge Index.largest (next.floor + next.step) with beyond | within
    · rw [Index.add?_eq_none beyond]
      exact iff_of_true rfl ⟨available, next, ensured, beyond⟩
    · rw [Index.add?_eq_some within]
      refine iff_of_false (Option.some_ne_none _) ?_
      rintro ⟨_, _, again, beyond⟩
      obtain ⟨-, rfl⟩ := Prod.mk.inj (ensured.symm.trans again)
      exact absurd beyond (Nat.not_lt.2 within)

/-- Releasing bytes takes no effort away that was not spent on making the
position available. -/
theorem effort_discardBefore_le {window window' : Window} {position : Nat}
    (h : window.discardBefore position = (.ok (), window')) :
    window'.effort ≤ window.effort := by
  unfold discardBefore at h
  split at h
  · simp at h
  · rename_i ensured
    have spent := effort_ensure_le ensured
    split at h <;> simp at h <;> subst h <;> exact spent

end Window

end TableDump
