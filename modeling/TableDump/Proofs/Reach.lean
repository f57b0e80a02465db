import Mathlib
import TableDump.Proofs.Contract
import TableDump.Proofs.Counting

/-!
# Reading does not reach beyond all numbers

A question that reaches beyond all numbers has no answer, and a reading that asked one would
not come to anything. But a careful reading chooses no offset freely: it looks two bytes at
most beyond what it knows to be there (`Query.Safe.reach_le`). As memory ends long before the
numbers do, every such question has an answer, and so the reading comes to what it comes to
with numbers that do not end (`Ground.run?_eq_some`).

That is so for the statements of a dump, in memory and over a source, however many of them
have been read (`Reader.readsInNumbers_after`). So it is no matter for what is said of statements
elsewhere that numbers end.
-/

namespace TableDump

variable {α κ : Type}

/-! ## Careful readings -/

namespace Ground

variable [Cursor κ] {has : (known : Nat) → κ → Prop} {fails : Fault → Prop} {known : Nat}
  {cursor : κ} {post : α → Nat → Prop}

/-- What every question keeps can be told of the cursors besides. -/
theorem and (ground : Ground has fails) (sound : κ → Prop)
    (kept : ∀ {cursor} (query : Query), sound cursor → sound (Cursor.answer query cursor).2) :
    Ground (fun known cursor => has known cursor ∧ sound cursor) fails where
  mono le h := ⟨ground.mono le h.1, h.2⟩
  ends {known cursor cursor' query outcome} h safe put := by
    have after := kept query h.2
    rw [put] at after
    cases ground.ends h.1 safe put with
    | failed may => exact .failed may
    | answered leaves there => exact .answered leaves ⟨there, after⟩

/-- **A careful reading comes to something**, if questions that do not reach far do. -/
theorem run?_eq_some (ground : Ground has fails)
    (answered : ∀ {known cursor} {query : Query}, has known cursor → query.reach ≤ known + 2 →
      Cursor.answer? query cursor = some (Cursor.answer query cursor))
    {scan : Scan α} (careful : scan.Careful known post) (here : has known cursor) :
    scan.run? cursor = some (scan.run cursor) := by
  induction scan generalizing known cursor with
  | done value => rfl
  | fail fault => rfl
  | locate next ih => exact ih _ _ (careful _ _) here
  | ask query next ih =>
    obtain ⟨safe, further⟩ := careful
    rw [Scan.run?, Scan.run, answered here safe.reach_le]
    rcases put : Cursor.answer query cursor with ⟨fault | answer, cursor'⟩
    · rfl
    · cases ground.ends here safe put with
      | answered leaves there => exact ih _ (further _ _ leaves) there

end Ground

/-! ## Near the cursor -/

section

variable {bytes : Array UInt8} {known : Nat} {query : Query}
  (inMemory : bytes.size ≤ Index.mostBytes) (near : query.reach ≤ known + 2)
include inMemory near

/-- In memory a question that does not reach far has an answer. -/
theorem InMemory.Has.answer?_eq {memory : InMemory} (h : memory.Has bytes known) :
    memory.answer? query = some (memory.answer query) := by
  have inside := h.le_size
  have less := query.reachInMemory_le
  have within := Index.add_le_largest inMemory (show 2 ≤ Index.mostBytes by decide)
  rw [← h.bytes_eq] at inside inMemory within
  rw [InMemory.answer?_eq inMemory (by omega), if_neg (by omega)]

/-- So it has over a source. -/
theorem Streaming.Has.answer?_eq {stream : Streaming} (h : stream.Has bytes known)
    (counted : stream.window.Counted bytes) :
    stream.answer? query = some (stream.answer query) := by
  have inside : stream.position + known ≤ bytes.size :=
    h.le_buffered.trans (h.shows.buffered_eq.trans_le h.shows.given_le)
  have within := Index.add_le_largest inMemory (show 2 ≤ Index.mostBytes by decide)
  rw [Streaming.answer?_eq counted inMemory h.floor_le (by omega), if_neg (by omega)]

end

/-! ## Statements -/

namespace Reader

/-- **The next statement is read with numbers**: where a statement is looked for, the reading
comes to something. -/
def ReadsInNumbers [Cursor κ] (reader : Reader κ) : Prop :=
  reader.finished = false → reader.settings.scanStatement.run? reader.cursor
    = some (reader.settings.scanStatement.run reader.cursor)

/-- A reader that stands among the bytes that it knows of reads with numbers. -/
theorem Stands.readsInNumbers [Cursor κ] {has : (known : Nat) → κ → Prop} {fails : Fault → Prop}
    {reader : Reader κ} (h : reader.Stands has) (ground : Ground has fails)
    (answered : ∀ {known cursor} {query : Query}, has known cursor → query.reach ≤ known + 2 →
      Cursor.answer? query cursor = some (Cursor.answer query cursor)) :
    reader.ReadsInNumbers := fun going =>
  ground.run?_eq_some answered reader.settings.careful_scanStatement (h going)

/-- **No statement is so far away that it cannot be read**, whatever the input that memory can
hold, the settings and the replies of the source, and however many calls came before. -/
theorem readsInNumbers_after {bytes : Array UInt8} (inMemory : bytes.size ≤ Index.mostBytes)
    (script : List Reply) {settings : Settings}
    (step_le : settings.sizing.step ≤ Index.largest) (count : Nat) :
    ((ofBytes bytes settings).after count).ReadsInNumbers
      ∧ ((ofSource { bytes, script } settings).after count).ReadsInNumbers := by
  constructor
  · have begins : (ofBytes bytes settings).Stands (InMemory.Has bytes) :=
      fun _ => ⟨rfl, Nat.zero_le _⟩
    exact (begins.after (InMemory.ground bytes) count).readsInNumbers (InMemory.ground bytes)
      fun has near => has.answer?_eq inMemory near
  · have ground := (Streaming.ground bytes).and (fun stream => stream.window.Counted bytes)
      fun query counted => Streaming.counted_answer counted query
    have begins : (ofSource { bytes, script } settings).Stands
        fun known stream => stream.Has bytes known ∧ stream.window.Counted bytes :=
      fun _ => ⟨.ofSource bytes script settings.sizing, .ofSource script step_le⟩
    exact (begins.after ground count).readsInNumbers ground
      fun has near => has.1.answer?_eq inMemory near has.2

end Reader

end TableDump
