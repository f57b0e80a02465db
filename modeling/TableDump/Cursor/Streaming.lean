import TableDump.Scan
import TableDump.Window

/-!
# A cursor over a source

The cursor stands in a window and never looks back, so it lets the window
release what it has passed. Every question is answered by the window at the
cursor's position; a question that cannot be answered because the source
failed leaves the cursor where it was, so that it can be asked again. Only
skipping to the end moves the cursor along the way, as nothing would be gained
by holding the skipped bytes.
-/

namespace TableDump

/-- A place in a window over a source. -/
structure Streaming where
  /-- The window. -/
  window : Window
  /-- Where the cursor stands. -/
  position : Nat

namespace Streaming

/-- A cursor at the first position that a window still has. -/
def ofWindow (window : Window) : Streaming := { window, position := window.floor }

/-- A cursor at the start of a source. -/
def ofSource (source : Source) (sizing : Window.Sizing := {}) : Streaming :=
  ofWindow (Window.ofSource source sizing)

/-- The number of bytes in front of the cursor, as far as it is known. -/
def remaining (cursor : Streaming) : Nat := cursor.window.length - cursor.position

/-- The number of bytes in front of the cursor, counting all that the source
could still give. -/
def left (cursor : Streaming) : Nat :=
  cursor.window.buffered + cursor.window.source.left - cursor.position

/-- The same cursor over a window that has moved on. -/
def withWindow (cursor : Streaming) (window : Window) : Streaming := { cursor with window }

/-- Goes forward by `count` bytes and releases what is behind. -/
def advance (cursor : Streaming) (count : Nat) : Except Fault Unit × Streaming :=
  let target := cursor.position + count
  match cursor.window.ensure target with
  | (.error fault, window) => (.error fault, cursor.withWindow window)
  | (.ok false, window) =>
    (.error (.access (.invalidRange cursor.position target)), cursor.withWindow window)
  | (.ok true, window) =>
    let (outcome, window) := window.discardBefore target
    (outcome, { window, position := target })

/-- The offset in front of the cursor of the first thing that `find` finds in
the input at or after `start`. -/
def search (cursor : Streaming) (find : Array UInt8 → Nat → Option Nat) (overlap start : Nat) :
    Except Fault (Option Nat) × Streaming :=
  let (outcome, window) := cursor.window.search find overlap (cursor.position + start)
  (outcome.map (Option.map (· - cursor.position)), cursor.withWindow window)

/-- Goes to the end of what is held, if the cursor is not there or beyond. -/
def skipHeld (cursor : Streaming) : Except Fault Unit × Streaming :=
  if cursor.position < cursor.window.buffered then
    let (outcome, window) := cursor.window.discardBefore cursor.window.buffered
    (outcome, { window, position := cursor.window.buffered })
  else (.ok (), cursor)

/-- Going to the end of what is held asks for nothing. -/
theorem effort_skipHeld_le {cursor cursor' : Streaming}
    (h : cursor.skipHeld = (.ok (), cursor')) :
    cursor'.window.effort ≤ cursor.window.effort := by
  unfold skipHeld at h
  split at h <;> simp only [Prod.mk.injEq] at h
  · obtain ⟨released, rfl⟩ := h
    exact Window.effort_discardBefore_le (Prod.ext released rfl)
  · obtain ⟨_, rfl⟩ := h
    exact Nat.le_refl _

/-- Goes to the end of the input, one refill after the other. -/
def skipRest (cursor : Streaming) : Except Fault Unit × Streaming :=
  match _skipped : cursor.skipHeld with
  | (.error fault, cursor') => (.error fault, cursor')
  | (.ok (), cursor') =>
    match _ensured : cursor'.window.ensure (cursor'.window.buffered + 1) with
    | (.error fault, window) => (.error fault, cursor'.withWindow window)
    | (.ok false, window) => (.ok (), cursor'.withWindow window)
    | (.ok true, window) => (cursor'.withWindow window).skipRest
termination_by cursor.window.effort
decreasing_by
  exact Nat.lt_of_lt_of_le (Window.effort_ensure_lt (Nat.lt_succ_self _) _ensured)
    (effort_skipHeld_le _skipped)

/-- A round of it is to go to the end of what is held and to ask for more. -/
theorem skipRest_eq (cursor : Streaming) : cursor.skipRest =
    match cursor.skipHeld with
    | (.error fault, next) => (.error fault, next)
    | (.ok (), next) =>
      match next.window.ensure (next.window.buffered + 1) with
      | (.error fault, window) => (.error fault, next.withWindow window)
      | (.ok false, window) => (.ok (), next.withWindow window)
      | (.ok true, window) => (next.withWindow window).skipRest := by
  rw [skipRest]
  split <;> rename_i held <;> simp only [held]
  split <;> rename_i ensured <;> simp only [ensured]

/-- The answer to a question. -/
def answer : (query : Query) → Streaming → Except Fault query.Answer × Streaming
  | .peek offset, cursor =>
    let (outcome, window) := cursor.window.byteAt (cursor.position + offset)
    (outcome, cursor.withWindow window)
  | .advance count, cursor => cursor.advance count
  | .slice start stop, cursor =>
    let (outcome, window) :=
      cursor.window.slice (cursor.position + start) (cursor.position + stop)
    (outcome, cursor.withWindow window)
  | .find needle start, cursor =>
    cursor.search (fun held => findBytes held needle) (needle.length - 1) start
  | .findEither a b start, cursor =>
    cursor.search (fun held => TableDump.findEither held a b) 0 start
  | .skipRest, cursor => cursor.skipRest
  | .preview count, cursor =>
    let (bytes, window) := cursor.window.preview cursor.position count
    (.ok bytes, cursor.withWindow window)

/-! ## Where the sums are numbers -/

/-- Goes forward to a position that is a number, and releases what is behind. -/
def advance? (cursor : Streaming) (count : Nat) : Option (Except Fault Unit × Streaming) := do
  let target ← Index.add? cursor.position count
  match cursor.window.ensure target with
  | (.ok true, window) =>
    let (outcome, window) ← window.discardBefore? target
    return (outcome, { window, position := target })
  | _ => return cursor.advance count

theorem advance_of_advance? {cursor : Streaming} {count : Nat}
    {answered : Except Fault Unit × Streaming} (h : cursor.advance? count = some answered) :
    cursor.advance count = answered := by
  obtain ⟨-, h⟩ := Index.of_add? h
  split at h
  case h_1 window ensured =>
    obtain ⟨released, discarded, h⟩ := Option.bind_eq_some_iff.1 h
    obtain rfl := Option.some.inj h
    unfold advance
    simp only [ensured, Window.discardBefore_of_discardBefore? discarded]
  case h_2 => exact Option.some.inj h

/-- Goes to the end of what is held, as `skipHeld` does. -/
def skipHeld? (cursor : Streaming) : Option (Except Fault Unit × Streaming) :=
  if cursor.position < cursor.window.buffered then do
    let (outcome, window) ← cursor.window.discardBefore? cursor.window.buffered
    return (outcome, { window, position := cursor.window.buffered })
  else some (.ok (), cursor)

theorem skipHeld_of_skipHeld? {cursor : Streaming} {skipped : Except Fault Unit × Streaming}
    (h : cursor.skipHeld? = some skipped) : cursor.skipHeld = skipped := by
  unfold skipHeld? at h
  unfold skipHeld
  split at h
  case isTrue behind =>
    obtain ⟨released, discarded, h⟩ := Option.bind_eq_some_iff.1 h
    obtain rfl := Option.some.inj h
    simp only [if_pos behind, Window.discardBefore_of_discardBefore? discarded]
  case isFalse there =>
    rw [if_neg there]
    exact Option.some.inj h

/-- Goes to the end of the input, as `skipRest` does. -/
def skipRest? (cursor : Streaming) : Option (Except Fault Unit × Streaming) :=
  match _skipped : cursor.skipHeld? with
  | none => none
  | some (.error fault, cursor') => some (.error fault, cursor')
  | some (.ok (), cursor') =>
    match _ensured : cursor'.window.ensure (cursor'.window.buffered + 1) with
    | (.error fault, window) => some (.error fault, cursor'.withWindow window)
    | (.ok false, window) => some (.ok (), cursor'.withWindow window)
    | (.ok true, window) => (cursor'.withWindow window).skipRest?
termination_by cursor.window.effort
decreasing_by
  exact Nat.lt_of_lt_of_le (Window.effort_ensure_lt (Nat.lt_succ_self _) _ensured)
    (effort_skipHeld_le (skipHeld_of_skipHeld? _skipped))

theorem skipRest_of_skipRest? {cursor : Streaming} {skipped : Except Fault Unit × Streaming}
    (h : cursor.skipRest? = some skipped) : cursor.skipRest = skipped := by
  fun_induction skipRest? cursor with
  | case1 => cases h
  | case2 cursor fault next held =>
    rw [skipRest_eq, skipHeld_of_skipHeld? held]
    exact Option.some.inj h
  | case3 cursor next held fault window ensured | case4 cursor next held window ensured =>
    simp only [skipRest_eq cursor, skipHeld_of_skipHeld? held, ensured]
    exact Option.some.inj h
  | case5 cursor next held window ensured ih =>
    simp only [skipRest_eq cursor, skipHeld_of_skipHeld? held, ensured]
    exact ih h

/-- **The answer to a question, where its sums are numbers.** The window knows
positions only, so an offset is added to the position of the cursor before
anything is asked for. -/
def answer? : (query : Query) → Streaming → Option (Except Fault query.Answer × Streaming)
  | .peek offset, cursor => do
    let index ← Index.add? cursor.position offset
    let (outcome, window) ← cursor.window.byteAt? index
    return (outcome, cursor.withWindow window)
  | .advance count, cursor => cursor.advance? count
  | .slice start stop, cursor => do
    let _ ← Index.add? cursor.position start
    let _ ← Index.add? cursor.position stop
    return cursor.answer (.slice start stop)
  | .find needle start, cursor => do
    let _ ← Index.add? cursor.position start
    return cursor.answer (.find needle start)
  | .findEither a b start, cursor => do
    let _ ← Index.add? cursor.position start
    return cursor.answer (.findEither a b start)
  | .skipRest, cursor => cursor.skipRest?
  | .preview count, cursor => some (cursor.answer (.preview count))

theorem answer_of_answer? {query : Query} {cursor : Streaming}
    {answered : Except Fault query.Answer × Streaming} (h : cursor.answer? query = some answered) :
    cursor.answer query = answered := by
  cases query with
  | peek offset =>
    obtain ⟨-, h⟩ := Index.of_add? h
    rw [Window.byteAt?_eq] at h
    split at h
    · cases h
    · exact Option.some.inj h
  | advance count => exact advance_of_advance? h
  | slice start stop =>
    obtain ⟨-, h⟩ := Index.of_add? h
    obtain ⟨-, h⟩ := Index.of_add? h
    exact Option.some.inj h
  | find needle start | findEither a b start =>
    obtain ⟨-, h⟩ := Index.of_add? h
    exact Option.some.inj h
  | skipRest => exact skipRest_of_skipRest? h
  | preview count => exact Option.some.inj h

instance : Cursor Streaming where
  position := position
  left := left
  answer := answer
  answer? := answer?
  answer_of_answer? := answer_of_answer?

end Streaming

end TableDump
