import Mathlib
import TableDump.Proofs.Buffering

/-!
# Any two numbers are a range

A range is two numbers, and nobody has to get them from a window. A window that is to look
one up that was made up compares its beginning with the floor and then asks how far both
ends are from the floor (`Window.resolve?`).

That is enough if the range is in order, since then its end is not below the floor either.
It is not enough for a range that is inverted. Such a range ought to be refused as invalid,
and it is, unless its end lies below the floor and its beginning does not: then there is no
answer. It takes a floor that has been moved for that to happen, and then there are such
ranges (`Window.answers_after`).
-/

namespace TableDump

namespace Window

variable {bytes : Array UInt8} {window : Window}

/-- **What a window answers when a range is looked up**, whatever its numbers are. -/
structure Answers (bytes : Array UInt8) (window : Window) (span : Span) : Prop where
  /-- It is stale if its beginning has been released, and only then. -/
  stale_iff : window.resolve? span = some (.error (.access (.stale span.start window.floor)))
    ↔ span.start < window.floor
  /-- It has its bytes if it is in order and held, and only then. -/
  ok_iff : ∀ content, window.resolve? span = some (.ok content)
    ↔ window.floor ≤ span.start ∧ span.start ≤ span.stop ∧ span.stop ≤ window.buffered
      ∧ content = (bytes.extract span.start span.stop).toList
  /-- It is invalid if it is inverted or passes what is held, as long as neither of its ends is
  below the floor. -/
  invalid_iff : window.resolve? span
      = some (.error (.access (.invalidRange span.start span.stop)))
    ↔ window.floor ≤ span.start ∧ window.floor ≤ span.stop
      ∧ (span.stop < span.start ∨ window.buffered < span.stop)
  /-- There is no answer if only its end is. -/
  none_iff : window.resolve? span = none ↔ window.floor ≤ span.start ∧ span.stop < window.floor

/-- A window that shows its input answers from it. -/
theorem Shows.answers (h : window.Shows bytes) (span : Span) : window.Answers bytes span := by
  have answer := window.resolve?_eq span
  split_ifs at answer with released below inside
  case pos => constructor <;> simp [answer] <;> omega
  case pos => constructor <;> simp [answer] <;> omega
  case pos =>
    rw [h.between_eq (Nat.not_lt.1 released) inside.1 inside.2] at answer
    constructor
    case ok_iff =>
      intro content
      rw [answer, Option.some.injEq, Except.ok.injEq]
      constructor
      · exact fun same => ⟨Nat.not_lt.1 released, inside.1, inside.2, same.symm⟩
      · exact fun all => all.2.2.2.symm
    all_goals simp [answer]
    all_goals omega
  case neg => constructor <;> simp [answer] <;> omega

/-- **Any two numbers can be looked up in any window**: in whatever order it was asked for
things before and however its source has answered, the floor and what is held decide what
comes of it. -/
theorem answers_after (bytes : Array UInt8) (script : List Reply) (sizing : Sizing)
    (operations : List Operation) (span : Span) :
    ((ofSource { bytes, script } sizing).after operations).Answers bytes span :=
  ((Shows.ofSource script sizing).after operations).shows.answers span

/-- **An inverted range is not always refused.** The floor has been moved to 8 here, and a
range from 9 back to 3 begins behind the floor and ends before it. It is not stale and has
no bytes, but it is not found to be invalid. -/
theorem resolve?_inverted :
    let window := (ofSource { bytes := bytesOf "0123456789" }
      { initialCapacity := 4, step := 2 }).after [.discardBefore 8]
    window.floor = 8 ∧ window.buffered = 8
      ∧ window.resolve? ⟨9, 3⟩ = none
      ∧ window.resolve? ⟨9, 3⟩ ≠ some (.error (.access (.invalidRange 9 3))) := by
  refine ⟨by cbv, by cbv, by cbv, ?_⟩
  have nothing : ((ofSource { bytes := bytesOf "0123456789" }
    { initialCapacity := 4, step := 2 }).after [.discardBefore 8]).resolve? ⟨9, 3⟩ = none := by cbv
  rw [nothing]
  exact (Option.some_ne_none _).symm

end Window

end TableDump
