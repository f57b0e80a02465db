import TableDump.Bytes
import TableDump.Fault

/-!
# A source of bytes that answers in pieces

Input may come from somewhere that answers a request for bytes with fewer
than were asked for, or with a failure. All that can be observed of such a
source is what it replies to each request in turn; so a source *is* its bytes
and a script of replies, one for each request. Past the end of the script it
gives whatever is asked for.

The source counts its requests. A failure is an error of the source's own, and it
is passed on as it is, whatever it says.

An interruption is no answer at all: the request is made again at once. Since
an interruption changes nothing but the count, `Source.pull` steps over all of
them first and then makes one request that is answered.
-/

namespace TableDump

/-- How a source answers one request. -/
inductive Reply where
  /-- At most `limit` bytes. -/
  | give (limit : Nat)
  /-- No bytes, but this error. -/
  | fail (error : SourceError)
  deriving DecidableEq, Repr

/-- Is it an interruption, after which one asks again? -/
def Reply.isInterruption : Reply → Bool
  | give _ => false
  | fail error => error.kind == .interrupted

/-- A source of bytes. -/
structure Source where
  /-- All bytes that there are. -/
  bytes : Array UInt8
  /-- The replies to the requests that are still to come. -/
  script : List Reply := []
  /-- How many of the bytes have been given out. -/
  given : Nat := 0
  /-- How many requests have been made. -/
  requests : Nat := 0

namespace Source

/-- How many bytes are still to be given out. -/
def left (source : Source) : Nat := source.bytes.size - source.given

/-- The bytes given out so far. -/
def delivered (source : Source) : Bytes := source.bytes.toList.take source.given

/-- Gives out `count` bytes in answer to a request. -/
def deliver (source : Source) (count : Nat) (script : List Reply) : Array UInt8 × Source :=
  (source.bytes.extract source.given (source.given + count),
    { source with script, given := source.given + count, requests := source.requests + 1 })

/-- **One request** for at most `room` bytes. -/
def read (source : Source) (room : Nat) : Except SourceError (Array UInt8) × Source :=
  match source.script with
  | [] =>
    let (chunk, source) := source.deliver (min room source.left) []
    (.ok chunk, source)
  | .give limit :: script =>
    let (chunk, source) := source.deliver (min limit (min room source.left)) script
    (.ok chunk, source)
  | .fail error :: script =>
    (.error error, { source with script, requests := source.requests + 1 })

/-- The source after all interruptions that stand next in its script. -/
def skipInterruptions (source : Source) : Source :=
  { source with
    script := source.script.dropWhile Reply.isInterruption
    requests := source.requests + (source.script.takeWhile Reply.isInterruption).length }

/-- **A request that is repeated until it is answered**, by bytes or by a
failure other than an interruption. -/
def pull (source : Source) (room : Nat) : Except SourceError (Array UInt8) × Source :=
  source.skipInterruptions.read room

/-! ## What an answer takes from a source -/

/-- A request that is answered takes from the source what it brings. -/
theorem left_of_read {source source' : Source} {room : Nat} {chunk : Array UInt8}
    (h : source.read room = (.ok chunk, source')) :
    source'.left + chunk.size = source.left := by
  unfold read at h
  split at h <;> simp [deliver] at h
  all_goals
    obtain ⟨rfl, rfl⟩ := h
    simp [left]
    omega

/-- So does one that is repeated until it is answered. -/
theorem left_of_pull {source source' : Source} {room : Nat} {chunk : Array UInt8}
    (h : source.pull room = (.ok chunk, source')) :
    source'.left + chunk.size = source.left :=
  @left_of_read source.skipInterruptions _ _ _ h

end Source

end TableDump
