import Mathlib
import TableDump.Proofs.Progress

/-!
# A window does not grow with the dump

However long a statement is, and whatever comments and texts stand in it, the
window behind a reader of a source holds two steps at most when the statement has
been handed out: one behind the reader's place and one in front of it
(`Reader.window_bounded`).

Behind the place this is so at any moment, since the cursor releases what it has
passed whenever it moves. In front of it, it is so between statements only. While
a statement is read the window holds the token that is being read, and what is
looked at behind that token. But a statement ends with a mark, and no byte is
looked at behind the mark before the next statement is asked for.
-/

namespace TableDump

namespace Streaming

/-- **Whatever is read, the window stays near the cursor**, also if the reading
fails. -/
theorem Near.run {α : Type} {step : Nat} {stream : Streaming} (h : stream.Near step)
    (scan : Scan α) : (scan.run stream).2.Near step := by
  induction scan generalizing stream with
  | done value => exact h
  | fail fault => exact h
  | locate next ih =>
    rw [Scan.run]
    exact ih _ _ h
  | ask query next ih =>
    have near := h.answer query
    rw [Scan.run]
    revert near
    rw [show Cursor.answer query stream = stream.answer query from rfl]
    rcases stream.answer query with ⟨fault | answer, stream'⟩
    · exact id
    · exact fun near => ih answer near

/-- The cursor after some readings, whatever comes of them. -/
def afterAll (readings : List ((α : Type) × Scan α)) (stream : Streaming) : Streaming :=
  readings.foldl (fun stream reading => (reading.2.run stream).2) stream

/-- After any readings the window is near the cursor. -/
theorem Near.afterAll {step : Nat} {stream : Streaming} (h : stream.Near step)
    (readings : List ((α : Type) × Scan α)) : (stream.afterAll readings).Near step := by
  induction readings generalizing stream with
  | nil => exact h
  | cons reading readings ih => exact ih (h.run reading.2)

end Streaming

namespace Reader

section

variable {κ : Type} [Cursor κ]

/-- **The readers that a reader becomes** when it is asked for statements, for as
long as there is an answer: a statement, or that there is none. -/
inductive Becomes (start : Reader κ) : Reader κ → Prop where
  | start : Becomes start start
  | next {reader reader' : Reader κ} {found : Option Statement} (before : Becomes start reader)
      (answered : reader.next = (.ok found, reader')) : Becomes start reader'

/-- **A reader that stands in the input**, and has looked at nothing in front of its
place. -/
structure Poised (stands : (place reach : Nat) → κ → Prop) (settings : Settings)
    (reader : Reader κ) : Prop where
  stands : ∃ place, stands place 0 reader.cursor
  settings_eq : reader.settings = settings

variable {bytes : Array UInt8} {stands : (place reach : Nat) → κ → Prop} {settings : Settings}
  {reader reader' : Reader κ}

/-- **A statement that is handed out leaves nothing looked at behind it.** -/
theorem Poised.next (h : reader.Poised stands settings) (footing : Footing bytes stands)
    {found : Option Statement} (answered : reader.next = (.ok found, reader')) :
    reader'.Poised stands settings ∧ ∀ statement, found = some statement →
      ∀ token ∈ statement.tokens, Canonical settings.maxDepth token := by
  obtain ⟨⟨place, standing⟩, rfl⟩ := h
  unfold Reader.next at answered
  split at answered
  · obtain ⟨⟨⟩, rfl⟩ := Prod.mk.inj answered
    exact ⟨⟨⟨place, standing⟩, rfl⟩, nofun⟩
  · have arrives : reader.settings.scanStatement.Arrives stands place 0 _ :=
      footing.scanStatement reader.settings (Nat.zero_le 1)
    split at answered
    · rename_i statement cursor ran
      obtain ⟨⟨⟩, rfl⟩ := Prod.mk.inj answered
      obtain ⟨place', _, standing', rfl, canonical⟩ := arrives _ _ _ standing ran
      exact ⟨⟨⟨place', standing'⟩, rfl⟩, canonical⟩
    · rename_i outcome cursor other ran
      obtain ⟨rfl, rfl⟩ := Prod.mk.inj answered
      obtain ⟨place', _, standing', rfl, canonical⟩ := arrives _ _ _ standing ran
      exact ⟨⟨⟨place', standing'⟩, rfl⟩, canonical⟩

/-- It stays so for as long as there is an answer. -/
theorem Poised.becomes {start : Reader κ} (h : start.Poised stands settings)
    (footing : Footing bytes stands) (becomes : start.Becomes reader) :
    reader.Poised stands settings := by
  induction becomes with
  | start => exact h
  | next before answered ih => exact (ih.next footing answered).1

end

/-- A reader of a source begins so. -/
theorem poised_ofSource (bytes : Array UInt8) (script : List Reply) (settings : Settings) :
    (ofSource { bytes, script } settings).Poised
      (Streaming.Stands bytes (max settings.sizing.step 1)) settings :=
  ⟨⟨0, .ofSource bytes script settings.sizing⟩, rfl⟩

/-- **The window of a reader is bounded by its step.** -/
structure Bounded (step : Nat) (reader : Reader Streaming) : Prop where
  /-- What has been released has been passed. -/
  floor_le : reader.cursor.window.floor ≤ reader.position
  /-- Of what has been passed, a step is kept at most. -/
  behind : reader.position - reader.cursor.window.floor ≤ step
  /-- In front of the reader, a step is held at most. -/
  ahead : reader.cursor.window.buffered ≤ reader.position + step
  /-- So no more than two steps are held. -/
  held : reader.cursor.window.held.size ≤ 2 * step
  /-- The source has given no more than a step of what is in front of the reader. -/
  given : reader.cursor.window.source.given ≤ reader.position + step

/-- Nothing looked at in front of it means a step at most. -/
theorem Poised.bounded {bytes : Array UInt8} {step : Nat} {settings : Settings}
    {reader : Reader Streaming} (h : reader.Poised (Streaming.Stands bytes step) settings) :
    reader.Bounded step := by
  obtain ⟨place, standing⟩ := h.stands
  have position_eq : reader.position = place := standing.position_eq
  have behind := standing.near.le_floor_add
  have ahead := standing.buffered_le
  have held : reader.cursor.window.buffered
      = reader.cursor.window.floor + reader.cursor.window.held.size := rfl
  have given := standing.shows.buffered_eq
  rw [standing.position_eq] at behind
  have floor_le := standing.floor_le
  exact ⟨by omega, by omega, by omega, by omega, by omega⟩

/-- **The window does not grow with the dump.** Whatever the source gives, and
whenever it fails or is interrupted: as long as a reader has been answered, with a
statement of any length or with the end of the input, its window is bounded by its
step, on both sides of the place where the reader is. And the window of a cursor
begins at most a step behind the cursor at any time, whatever is read with it and
whatever comes of that. -/
theorem window_bounded (bytes : Array UInt8) (script : List Reply) (settings : Settings) :
    (∀ reader, (ofSource { bytes, script } settings).Becomes reader →
        reader.Bounded (max settings.sizing.step 1))
      ∧ ∀ (window : Window) (readings : List ((α : Type) × Scan α)),
          ((Streaming.ofWindow window).afterAll readings).Near window.step := by
  constructor
  · intro reader becomes
    have poised := poised_ofSource bytes script settings
    exact (poised.becomes (Streaming.footing bytes _) becomes).bounded
  · exact fun window readings => (Streaming.Near.ofWindow window).afterAll readings

/-- A source that gives three bytes, is interrupted, and gives a byte. -/
def unevenSource : Source where
  bytes := bytesOf "    ;    "
  script := [.give 3, .fail .interruption, .give 1]

/-- Its first statement, read by two bytes at a time; and a cursor over it that is
asked to go further than there is. -/
theorem window_bounded_unevenSource :
    let start := ofSource unevenSource { sizing := { initialCapacity := 4, step := 2 } }
    start.Becomes start.next.2 ∧ start.next.2.position = 5 ∧ start.next.2.Bounded 2
      ∧ ((Streaming.ofSource unevenSource { step := 2 }).afterAll
          [⟨Unit, Scan.advance 5⟩, ⟨Unit, Scan.advance 7⟩]).Near 2 := by
  have answered : (ofSource unevenSource { sizing := { initialCapacity := 4, step := 2 } }).next.1
      = .ok (some ⟨[]⟩) := by cbv
  have becomes := Becomes.next .start (Prod.ext answered rfl)
  exact ⟨becomes, by cbv, (window_bounded _ _ _).1 _ becomes,
    (window_bounded #[] [] {}).2 (Window.ofSource unevenSource { step := 2 }) _⟩

end Reader

end TableDump
