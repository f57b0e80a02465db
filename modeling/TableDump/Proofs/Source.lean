import Mathlib
import TableDump.Source

/-!
# What can be relied on in a source

A source is a device with a script, and not every script is one that input
could come from. Two things may be asked of it, and they are independent.

A source is **honest** if it answers with nothing only when it has nothing
left, so that an empty answer can be taken for the end. Whether it does
depends on the room that its requests leave; `KeepsGiving` asks it of all
requests that leave room at all, of which those for a single byte take the
least.

A source is **reliable** if it fails only to interrupt. What an unreliable
source brings is still its bytes, in order (`Gave`): a failure takes nothing
from it.
-/

namespace TableDump

/-- An error that is an interruption. -/
def SourceError.interruption : SourceError := ⟨.interrupted, "again"⟩

@[simp] theorem SourceError.kind_interruption : interruption.kind = .interrupted := rfl

/-- An error that is none. -/
def SourceError.brokenPipe : SourceError := ⟨.named "BrokenPipe", "closed"⟩

/-- The replies of a script give something as long as something is left, when
every request leaves room for a byte at least.

No source is left out by this. Where nothing is left, a reply of at most one
byte brings nothing as well as a reply of none does, so the latter never has to
be written. -/
def KeepsGiving : (left : Nat) → List Reply → Prop
  | _, [] => True
  | left, .fail _ :: script => KeepsGiving left script
  | left, .give limit :: script => (limit = 0 → left = 0) ∧ KeepsGiving (left - 1) script

/-- Less is given out sooner. -/
theorem KeepsGiving.mono {script : List Reply} {left less : Nat} (h : KeepsGiving left script)
    (hle : less ≤ left) : KeepsGiving less script := by
  induction script generalizing left less with
  | nil => trivial
  | cons reply script ih =>
    cases reply with
    | fail error => exact ih h hle
    | give limit => exact ⟨fun zero => by have := h.1 zero; omega, ih h.2 (by omega)⟩

namespace Source

/-- **An empty answer is the end.** -/
def Honest (source : Source) : Prop := KeepsGiving source.left source.script

/-- **Every failure is an interruption.** -/
def Reliable (source : Source) : Prop :=
  ∀ error, Reply.fail error ∈ source.script → error.kind = .interrupted

/-- **The outcome is as `expected`, unless the source fails.** -/
def Yields {α : Type} (source : Source) (expected outcome : Except Fault α) : Prop :=
  outcome = expected ∨ ¬ source.Reliable ∧ ∃ error, outcome = .error (.source error)

/-- A reliable source does not fail. -/
theorem Yields.eq {α : Type} {source : Source} {expected outcome : Except Fault α}
    (h : source.Yields expected outcome) (reliable : source.Reliable) : outcome = expected :=
  h.resolve_right fun failed => failed.1 reliable

/-- **What an answer takes from a source**: the bytes that come next. -/
structure Gave (source source' : Source) (chunk : Array UInt8) : Prop where
  /-- The bytes are the same. -/
  bytes_eq : source'.bytes = source.bytes
  /-- Some of them have been given out now. -/
  given_le : source.given ≤ source'.given
  /-- There are no others. -/
  given_le_size : source'.given ≤ source.bytes.size
  /-- These are the answer. -/
  chunk_eq : chunk = source.bytes.extract source.given source'.given

/-! ## One request -/

/-- A source stays honest behind its interruptions. -/
theorem Honest.skipInterruptions {source : Source} (h : source.Honest) :
    source.skipInterruptions.Honest := by
  have shorter : ∀ (left : Nat) (script : List Reply), KeepsGiving left script →
      KeepsGiving left (script.dropWhile Reply.isInterruption) := by
    intro left script hscript
    induction script with
    | nil => trivial
    | cons reply script ih =>
      rw [List.dropWhile_cons]
      split
      · cases reply with
        | give limit => simp [Reply.isInterruption] at *
        | fail error => exact ih hscript
      · exact hscript
  exact shorter _ _ h

/-- A source stays reliable behind its interruptions. -/
theorem Reliable.skipInterruptions {source : Source} (h : source.Reliable) :
    source.skipInterruptions.Reliable :=
  fun error failure => h error ((List.dropWhile_sublist _).subset failure)

variable {source source' : Source} {room : Nat} {chunk : Array UInt8} {error : SourceError}

/-- Giving out some of what is left. -/
theorem gave_deliver {count : Nat} (script : List Reply) (h : count ≤ source.left)
    (hgiven : source.given ≤ source.bytes.size) :
    Gave source (source.deliver count script).2 (source.deliver count script).1 where
  bytes_eq := rfl
  given_le := Nat.le_add_right _ _
  given_le_size := by
    have : source.given + count ≤ source.bytes.size := by rw [left] at h; omega
    exact this
  chunk_eq := rfl

/-- **An answered request gives the next bytes.** -/
theorem gave_of_read (hgiven : source.given ≤ source.bytes.size)
    (h : source.read room = (.ok chunk, source')) : Gave source source' chunk := by
  unfold read at h
  split at h
  · obtain ⟨⟨⟩, rfl⟩ := Prod.mk.inj h
    exact gave_deliver _ (by omega) hgiven
  · obtain ⟨⟨⟩, rfl⟩ := Prod.mk.inj h
    exact gave_deliver _ (by omega) hgiven
  · simp at h

/-- **A failed request takes nothing** but the failure from the script. -/
theorem fail_of_read (h : source.read room = (.error error, source')) :
    source'.bytes = source.bytes ∧ source'.given = source.given
      ∧ source.script = .fail error :: source'.script := by
  unfold read at h
  split at h
  · simp at h
  · simp at h
  · rename_i error' script eq
    obtain ⟨same, rfl⟩ := Prod.mk.inj h
    obtain rfl := Except.error.inj same
    exact ⟨rfl, rfl, eq⟩

/-- What a request leaves in the script was there before. -/
theorem script_of_read {outcome : Except SourceError (Array UInt8)}
    (h : source.read room = (outcome, source')) : source'.script ⊆ source.script := by
  unfold read at h
  split at h <;> obtain ⟨-, rfl⟩ := Prod.mk.inj h
  · exact List.nil_subset _
  · rename_i eq
    rw [eq]
    exact List.subset_cons_self _ _
  · rename_i eq
    rw [eq]
    exact List.subset_cons_self _ _

/-- **An honest source stays honest, and answers with nothing at the end
only.** -/
theorem Honest.of_read (h : source.Honest) (hgiven : source.given ≤ source.bytes.size)
    (hroom : 0 < room) (hread : source.read room = (.ok chunk, source')) :
    source'.Honest ∧ (chunk = #[] → source.left = 0) := by
  have gave := gave_of_read hgiven hread
  have size : chunk.size = source'.given - source.given := by
    rw [gave.chunk_eq, Array.size_extract]
    have := gave.given_le_size
    omega
  have left : source'.left = source.bytes.size - source'.given := by rw [Source.left, gave.bytes_eq]
  unfold Honest at h ⊢
  unfold read at hread
  split at hread
  · obtain ⟨-, rfl⟩ := Prod.mk.inj hread
    refine ⟨trivial, fun empty => ?_⟩
    rw [empty, Array.size_empty] at size
    simp only at size
    omega
  · rename_i limit script eq
    obtain ⟨-, rfl⟩ := Prod.mk.inj hread
    rw [eq] at h
    simp only at left size ⊢
    constructor
    · refine h.2.mono ?_
      have := h.1
      simp only [Source.left] at this left ⊢
      omega
    · intro empty
      rw [empty, Array.size_empty] at size
      by_cases zero : limit = 0
      · exact h.1 zero
      · -- a byte could have been given, and none was left to give
        omega
  · simp at hread

/-- A source stays honest when it fails. -/
theorem Honest.of_read_error (h : source.Honest)
    (hread : source.read room = (.error error, source')) : source'.Honest := by
  obtain ⟨bytes_eq, given_eq, eq⟩ := fail_of_read hread
  unfold Honest at h ⊢
  rw [eq] at h
  rwa [left, bytes_eq, given_eq]

/-! ## A request repeated until it is answered -/

/-- An answer gives the next bytes, however often it was asked for. -/
theorem gave_of_pull (hgiven : source.given ≤ source.bytes.size)
    (h : source.pull room = (.ok chunk, source')) : Gave source source' chunk :=
  have gave : Gave source.skipInterruptions source' chunk := gave_of_read hgiven h
  ⟨gave.bytes_eq, gave.given_le, gave.given_le_size, gave.chunk_eq⟩

/-- What is left of the script was there before. -/
theorem script_of_pull {outcome : Except SourceError (Array UInt8)}
    (h : source.pull room = (outcome, source')) : source'.script ⊆ source.script :=
  have after : source'.script ⊆ source.skipInterruptions.script := script_of_read h
  fun _ kept => (List.dropWhile_sublist _).subset (after kept)

/-- **A failure is passed on only if it is no interruption**, and takes
nothing from the source. -/
theorem fail_of_pull (h : source.pull room = (.error error, source')) :
    source'.bytes = source.bytes ∧ source'.given = source.given
      ∧ error.kind ≠ .interrupted ∧ Reply.fail error ∈ source.script := by
  obtain ⟨bytes_eq, given_eq, eq⟩ :=
    fail_of_read (show source.skipInterruptions.read room = _ from h)
  have next : source.skipInterruptions.script.head? = some (.fail error) := by
    rw [eq, List.head?_cons]
  refine ⟨bytes_eq, given_eq, fun interrupted => ?_, ?_⟩
  · have first := List.head?_dropWhile_not Reply.isInterruption source.script
    rw [show (source.script.dropWhile _).head? = _ from next] at first
    simp [Reply.isInterruption, interrupted] at first
  · exact (List.dropWhile_sublist _).subset (List.mem_of_head? next)

/-- A reliable source does not fail. -/
theorem Reliable.of_pull (h : source.Reliable) {outcome : Except SourceError (Array UInt8)}
    (hpull : source.pull room = (outcome, source')) : source'.Reliable :=
  fun error failure => h error (script_of_pull hpull failure)

/-- An honest source stays honest, and answers with nothing at the end only. -/
theorem Honest.of_pull (h : source.Honest) (hgiven : source.given ≤ source.bytes.size)
    (hroom : 0 < room) (hpull : source.pull room = (.ok chunk, source')) :
    source'.Honest ∧ (chunk = #[] → source.left = 0) :=
  h.skipInterruptions.of_read hgiven hroom hpull

/-- An honest source stays honest when it fails. -/
theorem Honest.of_pull_error (h : source.Honest)
    (hpull : source.pull room = (.error error, source')) : source'.Honest :=
  h.skipInterruptions.of_read_error hpull

end Source

end TableDump
