import TableDump.Index
import TableDump.Scan

/-!
# A cursor over bytes in memory

All bytes are there, so no question has an effect and none can fail for want
of bytes: the only failures are ranges that leave the input. Every answer is a
fact about the bytes in front of the cursor (`InMemory.ahead`); those behind it
are never looked at again.
-/

namespace TableDump

/-- A place in bytes that are all in memory. -/
structure InMemory where
  /-- The input. -/
  bytes : Array UInt8
  /-- Where the cursor stands. -/
  position : Nat := 0

namespace InMemory

/-- The number of bytes in front of the cursor. -/
def remaining (cursor : InMemory) : Nat := cursor.bytes.size - cursor.position

/-- The bytes in front of the cursor. -/
def ahead (cursor : InMemory) : Bytes := cursor.bytes.toList.drop cursor.position

/-- The offset in front of the cursor of a position in the input. -/
def offset? (cursor : InMemory) (position : Option Nat) : Option Nat :=
  position.map (· - cursor.position)

/-- The answer to a question. -/
def answer : (query : Query) → InMemory → Except Fault query.Answer × InMemory
  | .peek offset, cursor => (.ok cursor.bytes[cursor.position + offset]?, cursor)
  | .advance count, cursor =>
    let target := cursor.position + count
    if count ≤ cursor.remaining then (.ok (), { cursor with position := target })
    else (.error (.access (.invalidRange cursor.position target)), cursor)
  | .slice start stop, cursor =>
    let first := cursor.position + start
    let last := cursor.position + stop
    if start ≤ stop ∧ stop ≤ cursor.remaining then
      (.ok (cursor.bytes.extract first last).toList, cursor)
    else (.error (.access (.invalidRange first last)), cursor)
  | .find needle start, cursor =>
    (.ok (cursor.offset? (findBytes cursor.bytes needle (cursor.position + start))), cursor)
  | .findEither a b start, cursor =>
    (.ok (cursor.offset? (TableDump.findEither cursor.bytes a b (cursor.position + start))),
      cursor)
  | .skipRest, cursor => (.ok (), { cursor with position := cursor.bytes.size })
  | .preview count, cursor =>
    (.ok (cursor.bytes.extract cursor.position (cursor.position + count)).toList, cursor)

/-- **The answer to a question, where its sums are numbers.** Only the ends of a
range are formed, and that of going forward only to be named in a fault; any other
offset is compared with the number of bytes in front of the cursor. -/
def answer? : (query : Query) → InMemory → Option (Except Fault query.Answer × InMemory)
  | .advance count, cursor => do
    let _ ← Index.add? cursor.position count
    return cursor.answer (.advance count)
  | .slice start stop, cursor => do
    let _ ← Index.add? cursor.position start
    let _ ← Index.add? cursor.position stop
    return cursor.answer (.slice start stop)
  | query, cursor => some (cursor.answer query)

theorem answer_of_answer? {query : Query} {cursor : InMemory}
    {answered : Except Fault query.Answer × InMemory} (h : cursor.answer? query = some answered) :
    cursor.answer query = answered := by
  cases query with
  | advance count =>
    obtain ⟨-, h⟩ := Index.of_add? h
    exact Option.some.inj h
  | slice start stop =>
    obtain ⟨-, h⟩ := Index.of_add? h
    obtain ⟨-, h⟩ := Index.of_add? h
    exact Option.some.inj h
  | peek offset | find needle start | findEither a b start | skipRest | preview count =>
    exact Option.some.inj h

instance : Cursor InMemory where
  position := position
  left := remaining
  answer := answer
  answer? := answer?
  answer_of_answer? := answer_of_answer?

end InMemory

end TableDump
