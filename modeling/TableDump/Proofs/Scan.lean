import Mathlib
import TableDump.Scan

/-!
# Carrying a reading out

A scan is a tree, and carrying it out follows one branch of it. So what two
scans in sequence do is what the first does and then the second
(`Scan.run_bind`), and a law about single questions is a law about whole
readings.

The law wanted most is that two cursors cannot be told apart. It is a relation
between cursors which says where both of them stand and which survives every
question (`Lockstep`) – every question *of those that are asked*, since cursors
may well differ on a question that no reading has a use for. Which these are is
a property of the scan, `Scan.Asks`, and it is closed under sequence like
everything else.
-/

namespace TableDump

variable {α β γ κ κ' : Type}

/-- **A question that all cursors understand alike**: no search for nothing. -/
def Query.Sensible : Query → Prop
  | .find needle _ => needle ≠ []
  | _ => True

namespace Scan

/-- Sequencing is that of the tree. -/
theorem bind_eq (first : Scan α) (next : α → Scan β) : first >>= next = first.bind next := rfl

/-- What needs no reading is done. -/
theorem pure_eq (value : α) : (pure value : Scan α) = done value := rfl

/-- Sequences of scans can be grouped either way. -/
theorem bind_assoc (first : Scan α) (next : α → Scan β) (last : β → Scan γ) :
    first >>= next >>= last = first >>= fun value => next value >>= last := by
  simp only [bind_eq]
  induction first with
  | done value => rfl
  | fail fault => rfl
  | locate rest ih =>
    simp only [Scan.bind]
    exact congrArg locate (funext fun position => funext fun left => ih position left)
  | ask query rest ih =>
    simp only [Scan.bind]
    exact congrArg (ask query) (funext fun answer => ih answer)

/-! ## One step of a reading -/

section Run

variable [Cursor κ]

@[simp] theorem run_pure (value : α) (cursor : κ) :
    (pure value : Scan α).run cursor = (.ok value, cursor) := by
  rw [pure_eq, run]

@[simp] theorem run_fail (fault : Fault) (cursor : κ) :
    (fail fault : Scan α).run cursor = (.error fault, cursor) := by
  rw [run]

/-- **First the one, then the other**: the second reading starts where the
first one stopped, unless that failed. -/
theorem run_bind (first : Scan α) (next : α → Scan β) (cursor : κ) :
    (first >>= next).run cursor =
      match first.run cursor with
      | (.ok value, cursor) => (next value).run cursor
      | (.error fault, cursor) => (.error fault, cursor) := by
  rw [bind_eq]
  induction first generalizing cursor with
  | done value => rw [bind, run]
  | fail fault => rw [bind, run, run]
  | locate rest ih => rw [bind, run, run, ih]
  | ask query rest ih =>
    rw [bind, run, run]
    rcases Cursor.answer query cursor with ⟨outcome, cursor⟩
    cases outcome with
    | error fault => rfl -- the second reading is never begun
    | ok answer => exact ih answer cursor

/-- A reading that goes on behind one that succeeds. -/
theorem run_bind_ok {first : Scan α} {next : α → Scan β} {cursor cursor' : κ} {value : α}
    (h : first.run cursor = (.ok value, cursor')) :
    (first >>= next).run cursor = (next value).run cursor' := by
  rw [run_bind, h]

/-- A reading ends with one that fails. -/
theorem run_bind_error {first : Scan α} {next : α → Scan β} {cursor cursor' : κ} {fault : Fault}
    (h : first.run cursor = (.error fault, cursor')) :
    (first >>= next).run cursor = (.error fault, cursor') := by
  rw [run_bind, h]

/-- **A sequence succeeds only if both parts do.** -/
theorem ok_of_run_bind {first : Scan α} {next : α → Scan β} {cursor cursor' : κ} {value : β}
    (h : (first >>= next).run cursor = (.ok value, cursor')) :
    ∃ between cursor'', first.run cursor = (.ok between, cursor'')
      ∧ (next between).run cursor'' = (.ok value, cursor') := by
  rw [run_bind] at h
  split at h
  · exact ⟨_, _, ‹_›, h⟩
  · simp at h

/-- A single question is answered by the cursor. -/
theorem run_ask (query : Query) (cursor : κ) :
    (ask query done).run cursor = Cursor.answer query cursor := by
  rw [run]
  rcases Cursor.answer query cursor with ⟨outcome, cursor⟩
  cases outcome with
  | error fault => rfl
  | ok answer => simp only [run]

@[simp] theorem run_position (cursor : κ) :
    position.run cursor = (.ok (Cursor.position cursor), cursor) := by
  rw [position, run, run]

@[simp] theorem run_left (cursor : κ) : left.run cursor = (.ok (Cursor.left cursor), cursor) := by
  rw [left, run, run]

/-! ### Where the sums are numbers -/

/-- First the one, then the other, if both come to something. -/
theorem run?_bind (first : Scan α) (next : α → Scan β) (cursor : κ) :
    (first >>= next).run? cursor =
      match first.run? cursor with
      | none => none
      | some (.ok value, cursor) => (next value).run? cursor
      | some (.error fault, cursor) => some (.error fault, cursor) := by
  rw [bind_eq]
  induction first generalizing cursor with
  | done value => rw [bind, run?]
  | fail fault => rw [bind, run?, run?]
  | locate rest ih => rw [bind, run?, run?, ih]
  | ask query rest ih =>
    rw [bind, run?, run?]
    rcases Cursor.answer? query cursor with _ | ⟨fault | answer, cursor⟩
    · rfl
    · rfl
    · exact ih answer cursor

/-- **A sequence comes to something if its parts do.** -/
theorem run?_bind_eq_some {first : Scan α} {next : α → Scan β} {cursor : κ}
    (hfirst : first.run? cursor = some (first.run cursor))
    (hnext : ∀ value cursor', first.run cursor = (.ok value, cursor') →
      (next value).run? cursor' = some ((next value).run cursor')) :
    (first >>= next).run? cursor = some ((first >>= next).run cursor) := by
  rw [run?_bind, run_bind, hfirst]
  rcases ran : first.run cursor with ⟨fault | value, cursor'⟩
  · rfl
  · exact hnext value cursor' ran

theorem run?_ask (query : Query) (cursor : κ) :
    (ask query done).run? cursor = Cursor.answer? query cursor := by
  rw [run?]
  rcases Cursor.answer? query cursor with _ | ⟨fault | answer, cursor⟩ <;> rfl

end Run

/-! ## The questions of a reading -/

/-- **Every question of the reading is one that is `allowed`**, whatever the
answers to the questions before it. -/
def Asks (allowed : Query → Prop) : Scan α → Prop
  | done _ => True
  | fail _ => True
  | locate next => ∀ position left, (next position left).Asks allowed
  | ask query next => allowed query ∧ ∀ answer, (next answer).Asks allowed

variable {allowed : Query → Prop}

@[simp] theorem asks_pure (value : α) : (pure value : Scan α).Asks allowed := trivial

@[simp] theorem asks_fail (fault : Fault) : (fail fault : Scan α).Asks allowed := trivial

@[simp] theorem asks_position : position.Asks allowed := fun _ _ => trivial

@[simp] theorem asks_left : left.Asks allowed := fun _ _ => trivial

theorem asks_ask {query : Query} (h : allowed query) : (ask query done).Asks allowed :=
  ⟨h, fun _ => trivial⟩

/-- A sequence asks what its parts ask. -/
theorem asks_bind {first : Scan α} {next : α → Scan β} (hfirst : first.Asks allowed)
    (hnext : ∀ value, (next value).Asks allowed) : (first >>= next).Asks allowed := by
  rw [bind_eq]
  induction first with
  | done value => exact hnext value
  | fail fault => trivial
  | locate rest ih => exact fun position left => ih position left (hfirst position left)
  | ask query rest ih => exact ⟨hfirst.1, fun answer => ih answer (hfirst.2 answer)⟩

end Scan

/-! ## Two cursors in step -/

section Lockstep

variable [Cursor κ] [Cursor κ']

/-- **Cursors that cannot be told apart.** Related cursors stand at the same
place, and any `allowed` question gets the same answer from both of them and
leaves them related. -/
structure Lockstep (allowed : Query → Prop) (related : κ → κ' → Prop) : Prop where
  /-- They are equally far from the start of the input. -/
  position_eq : ∀ {first second}, related first second →
    Cursor.position first = Cursor.position second
  /-- They have equally much in front of them. -/
  left_eq : ∀ {first second}, related first second → Cursor.left first = Cursor.left second
  /-- They answer alike. -/
  answer_eq : ∀ {first second} (query : Query), related first second → allowed query →
    (Cursor.answer query first).1 = (Cursor.answer query second).1
  /-- They stay related, also after a failure. -/
  answer_related : ∀ {first second} (query : Query), related first second → allowed query →
    related (Cursor.answer query first).2 (Cursor.answer query second).2

variable {allowed : Query → Prop} {related : κ → κ' → Prop}

/-- **A reading cannot tell such cursors apart**: it comes to the same end on
both, and leaves them related. -/
theorem Lockstep.run (step : Lockstep allowed related) {scan : Scan α} (asks : scan.Asks allowed)
    {first : κ} {second : κ'} (h : related first second) :
    (scan.run first).1 = (scan.run second).1
      ∧ related (scan.run first).2 (scan.run second).2 := by
  induction scan generalizing first second with
  | done value => exact ⟨rfl, h⟩
  | fail fault => exact ⟨rfl, h⟩
  | locate next ih =>
    rw [Scan.run, Scan.run, step.position_eq h, step.left_eq h]
    exact ih _ _ (asks _ _) h
  | ask query next ih =>
    have same := step.answer_eq query h asks.1
    have after := step.answer_related query h asks.1
    rw [Scan.run, Scan.run]
    revert same after
    rcases Cursor.answer query first with ⟨outcome, first'⟩
    rcases Cursor.answer query second with ⟨outcome', second'⟩
    intro same after
    -- with the same answer both go on along the same branch
    obtain rfl : outcome = outcome' := same
    cases outcome with
    | error fault => exact ⟨rfl, after⟩
    | ok answer => exact ih answer (asks.2 answer) after

end Lockstep

end TableDump
