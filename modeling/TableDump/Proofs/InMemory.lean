import Mathlib
import TableDump.Proofs.Questions
import TableDump.Proofs.Recognition

/-!
# Reading in memory

No reading changes the bytes that are read, and none of those that tokens are
read by can fail for want of bytes: in memory there is no source that could
fail.
-/

namespace TableDump

namespace InMemory

variable {α : Type}

/-- A cursor stands between what is behind it and what is ahead. -/
theorem eq_between {memory : InMemory} (h : memory.position ≤ memory.bytes.size) :
    memory = between (memory.bytes.toList.take memory.position) memory.ahead := by
  unfold between ahead
  rw [List.take_append_drop, List.length_take, Array.length_toList, min_eq_left h]

theorem bytes_answer (query : Query) (memory : InMemory) :
    (memory.answer query).2.bytes = memory.bytes := by
  cases query with
  | advance count | slice start stop =>
    unfold answer
    dsimp only
    split <;> rfl
  | peek offset | find needle start | findEither a b start | skipRest | preview count => rfl

/-- **No reading changes the input.** -/
theorem bytes_run (scan : Scan α) (memory : InMemory) :
    (scan.run memory).2.bytes = memory.bytes := by
  induction scan generalizing memory with
  | done value => rfl
  | fail fault => rfl
  | locate next ih =>
    rw [Scan.run]
    exact ih _ _ memory
  | ask query next ih =>
    have kept := memory.bytes_answer query
    rw [Scan.run]
    revert kept
    rw [show Cursor.answer query memory = memory.answer query from rfl]
    rcases memory.answer query with ⟨fault | answer, memory'⟩
    · exact id
    · exact fun kept => (ih answer memory').trans kept

/-- **No source fails** while this is read in memory. -/
def Unfailing (scan : Scan α) : Prop :=
  ∀ (memory : InMemory) (error : SourceError), (scan.run memory).1 ≠ .error (.source error)

/-- A fault is no failure of a source, wherever it is found. -/
theorem unfailing_fail {fault : Fault} (h : fault.sourceError? = none) :
    Unfailing (Scan.fail fault : Scan α) := by
  intro memory error failed
  obtain rfl : fault = .source error := Except.error.inj failed
  exact absurd h nofun

theorem unfailing_ask (query : Query) : Unfailing (Scan.ask query Scan.done) := by
  intro memory error
  rw [Scan.run_ask]
  show (memory.answer query).1 ≠ _
  cases query with
  | advance count | slice start stop =>
    unfold answer
    dsimp only
    split <;> exact nofun
  | peek offset | find needle start | findEither a b start | skipRest | preview count =>
    exact nofun

theorem unfailing_bind {β : Type} {first : Scan α} {next : α → Scan β} (hfirst : Unfailing first)
    (hnext : ∀ value, Unfailing (next value)) : Unfailing (first >>= next) := by
  intro memory error
  have unfailing := hfirst memory error
  rw [Scan.run_bind]
  split
  · exact hnext _ _ error
  · rename_i ran
    rw [ran] at unfailing
    simpa using unfailing

/-- That no source fails goes by the parts of a reading. -/
theorem compositional_unfailing (settings : Settings) :
    settings.Compositional fun scan => Unfailing scan where
  pure _ := fun _ _ => nofun
  bind := unfailing_bind
  left := fun _ _ => nofun
  ask query _ _ := unfailing_ask query
  malformed _ :=
    unfailing_bind (fun _ _ => nofun) fun _ => unfailing_bind (unfailing_ask _) fun _ =>
      unfailing_fail rfl
  unexpected _ :=
    unfailing_bind (unfailing_ask _) fun _ => unfailing_bind (fun _ _ => nofun) fun _ =>
      unfailing_fail rfl

end InMemory

end TableDump
