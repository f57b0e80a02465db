import TableDump.Bytes
import TableDump.Fault

/-!
# Scans: reading written once, for any cursor

Bytes can be read from memory, where all of them are there, or through a
window over a source, where looking further ahead may mean asking for more and
may fail. What is read does not depend on which it is, and this module makes
that true by construction: reading is described by a `Scan`, which knows
nothing of where the bytes are. A scan is a finite tree – it is done, it
fails, or it asks a question and goes on with the answer – and a cursor is
something that answers questions (`Cursor.answer`) while moving forward.

So a law that relates the answers of two cursors, question by question,
relates what *every* scan reads from them; one induction over the tree is all
that it takes.

All offsets in questions count from where the cursor stands.

Numbers end, and what a question asks for may lie beyond the last of them. Then it
has no answer (`Cursor.answer?`). The reading of statements never asks that far, so it
is carried out as if numbers did not end (`Scan.run`); a call from outside is carried
out with numbers that do (`Scan.run?`).

Repetition in a scan is bounded by the number of bytes in front of the cursor,
which `Scan.locate` tells: a loop that goes on moves forward.
-/

namespace TableDump

/-- **What a scan may ask of a cursor.** -/
inductive Query where
  /-- Which byte stands at `offset`, if any? -/
  | peek (offset : Nat)
  /-- Go forward by `count` bytes. -/
  | advance (count : Nat)
  /-- Which bytes stand between two offsets? -/
  | slice (start stop : Nat)
  /-- Where is the first occurrence of `needle` at or after `start`? -/
  | find (needle : Bytes) (start : Nat)
  /-- Where is the first `a` or `b` at or after `start`? -/
  | findEither (a b : UInt8) (start : Nat)
  /-- Go to the end of the input. -/
  | skipRest
  /-- Which bytes come next, up to `count` of them, as far as they can be had
  without a failure? -/
  | preview (count : Nat)
  deriving DecidableEq, Repr

/-- What a question is answered with. -/
abbrev Query.Answer : Query → Type
  | .peek _ => Option UInt8
  | .advance _ => Unit
  | .slice _ _ => Bytes
  | .find _ _ => Option Nat
  | .findEither _ _ _ => Option Nat
  | .skipRest => Unit
  | .preview _ => Bytes

/-- **A place in some input from which to read on.** -/
class Cursor (κ : Type) where
  /-- How far the cursor is from the start of the input. -/
  position : κ → Nat
  /-- A bound on the number of bytes that the cursor has in front of it. -/
  left : κ → Nat
  /-- The answer to a question, and where the cursor is then. -/
  answer : (query : Query) → κ → Except Fault query.Answer × κ
  /-- The same, where every sum that the question takes is a number. -/
  answer? : (query : Query) → κ → Option (Except Fault query.Answer × κ)
  /-- There is no other answer. -/
  answer_of_answer? : ∀ {query : Query} {cursor : κ} {answered : Except Fault query.Answer × κ},
    answer? query cursor = some answered → answer query cursor = answered

/-- **A reading of some bytes** that makes an `α` of them, or fails. -/
inductive Scan (α : Type) where
  /-- The reading is finished. -/
  | done (value : α)
  /-- The reading cannot go on. -/
  | fail (fault : Fault)
  /-- Look where the cursor stands and how much is at most in front of it. -/
  | locate (next : (position left : Nat) → Scan α)
  /-- Ask, and go on with the answer. -/
  | ask (query : Query) (next : query.Answer → Scan α)

namespace Scan

variable {α β κ : Type}

/-- First the one reading, then the other. -/
def bind (first : Scan α) (next : α → Scan β) : Scan β :=
  match first with
  | done value => next value
  | fail fault => fail fault
  | locate rest => locate fun position left => (rest position left).bind next
  | ask query rest => ask query fun answer => (rest answer).bind next

instance : Monad Scan where
  pure := done
  bind := bind

/-- **Carries a reading out.** The cursor is returned also after a failure: it
stands where the reading stopped. -/
def run [Cursor κ] (scan : Scan α) (cursor : κ) : Except Fault α × κ :=
  match scan with
  | done value => (.ok value, cursor)
  | fail fault => (.error fault, cursor)
  | locate next => (next (Cursor.position cursor) (Cursor.left cursor)).run cursor
  | ask query next =>
    match Cursor.answer query cursor with
    | (.error fault, cursor) => (.error fault, cursor)
    | (.ok answer, cursor) => (next answer).run cursor

/-- **Carries a reading out where its sums are numbers.** A question that has no
answer for want of one ends everything. -/
def run? [Cursor κ] (scan : Scan α) (cursor : κ) : Option (Except Fault α × κ) :=
  match scan with
  | done value => some (.ok value, cursor)
  | fail fault => some (.error fault, cursor)
  | locate next => (next (Cursor.position cursor) (Cursor.left cursor)).run? cursor
  | ask query next =>
    match Cursor.answer? query cursor with
    | none => none
    | some (.error fault, cursor) => some (.error fault, cursor)
    | some (.ok answer, cursor) => (next answer).run? cursor

/-- **Nothing else comes of it.** -/
theorem run_of_run? [Cursor κ] {scan : Scan α} {cursor : κ} {outcome : Except Fault α × κ}
    (h : scan.run? cursor = some outcome) : scan.run cursor = outcome := by
  induction scan generalizing cursor with
  | done value | fail fault => exact Option.some.inj h
  | locate next ih => exact ih _ _ h
  | ask query next ih =>
    rw [run?] at h
    rw [run]
    split at h
    case h_1 => cases h
    case h_2 answered =>
      rw [Cursor.answer_of_answer? answered]
      exact Option.some.inj h
    case h_3 answered =>
      rw [Cursor.answer_of_answer? answered]
      exact ih _ h

/-! ## Single questions -/

/-- How far the cursor is from the start of the input. -/
def position : Scan Nat := locate fun position _ => done position

/-- A bound on the number of bytes in front of the cursor. -/
def left : Scan Nat := locate fun _ left => done left

/-- The byte at `offset`, if any. -/
def peek (offset : Nat) : Scan (Option UInt8) := ask (.peek offset) done

/-- Goes forward by `count` bytes. -/
def advance (count : Nat) : Scan Unit := ask (.advance count) done

/-- The bytes between two offsets. -/
def slice (start stop : Nat) : Scan Bytes := ask (.slice start stop) done

/-- The offset of the first occurrence of `needle` at or after `start`. -/
def find (needle : Bytes) (start : Nat) : Scan (Option Nat) := ask (.find needle start) done

/-- The offset of the first `a` or `b` at or after `start`. -/
def findEither (a b : UInt8) (start : Nat) : Scan (Option Nat) :=
  ask (.findEither a b start) done

/-- Goes to the end of the input. -/
def skipRest : Scan Unit := ask .skipRest done

/-- The bytes that come next, up to `count` of them. -/
def preview (count : Nat) : Scan Bytes := ask (.preview count) done

/-- Is the cursor at the end of the input? -/
def atEnd : Scan Bool := do
  let byte ← peek 0
  return byte.isNone

/-- The offset of the first byte at or after `start` that is not a `member`,
or of the end of the input. `fuel` bounds the number of bytes looked at. -/
def spanFrom (member : UInt8 → Bool) (start : Nat) : (fuel : Nat) → Scan Nat
  | 0 => return start
  | fuel + 1 => do
    match ← peek start with
    | none => return start
    | some byte => if member byte then spanFrom member (start + 1) fuel else return start

/-- **Where a run of bytes of one class ends** that begins at `start`. -/
def spanEnd (member : UInt8 → Bool) (start : Nat) : Scan Nat := do
  spanFrom member start ((← left) + 1)

end Scan

end TableDump
