import Mathlib
import TableDump.Cursor.Streaming
import TableDump.Proofs.Source

/-!
# Which failure comes out

The failures of a source are known from its script: they are the errors in it
that are no interruptions (`Source.failures`). An operation asks the source any
number of times, and it ends with the first request that fails. So it meets none
of the failures to come, or the first of them, and then that one is its outcome
(`Source.Meets`).

This is a law about outcomes alone. It holds of every operation, whatever the
source gives and whatever the window holds.
-/

namespace TableDump

variable {α : Type}

/-- The failure of a source that an outcome is, if it is one. -/
def raised : Except Fault α → Option SourceError
  | .error fault => fault.sourceError?
  | .ok _ => none

@[simp] theorem raised_source (error : SourceError) :
    raised (.error (.source error) : Except Fault α) = some error := rfl

/-- What is done with a value has no part in the failure. -/
@[simp] theorem raised_map {β : Type} (f : α → β) (outcome : Except Fault α) :
    raised (outcome.map f) = raised outcome := by
  cases outcome <;> rfl

/-- The error that a reply is, unless it is an interruption. -/
def Reply.failure? : Reply → Option SourceError
  | .give _ => none
  | .fail error => if error.kind = .interrupted then none else some error

namespace Source

/-- **The failures to come**, in the words in which they will come. -/
def failures (source : Source) : List SourceError := source.script.filterMap Reply.failure?

/-- **An operation meets the first of the failures to come**, which is its
outcome then, or none of them. -/
def Meets (source : Source) (outcome : Except Fault α) (source' : Source) : Prop :=
  source.failures = (raised outcome).toList ++ source'.failures

variable {source source' : Source} {room : Nat}

/-- Interruptions do not count. -/
@[simp] theorem failures_skipInterruptions (source : Source) :
    source.skipInterruptions.failures = source.failures := by
  have later : ∀ script : List Reply,
      (script.dropWhile Reply.isInterruption).filterMap Reply.failure?
        = script.filterMap Reply.failure? := by
    intro script
    induction script with
    | nil => rfl
    | cons reply script ih =>
      rw [List.dropWhile_cons]
      split
      · cases reply with
        | give limit => simp [Reply.isInterruption] at *
        | fail error =>
          rename_i interruption
          have silent : Reply.failure? (.fail error) = none := if_pos (eq_of_beq interruption)
          rw [ih, List.filterMap_cons_none silent]
      · rfl
  exact later source.script

/-- A request that is answered meets no failure. -/
theorem failures_of_read {chunk : Array UInt8} (h : source.read room = (.ok chunk, source')) :
    source'.failures = source.failures := by
  unfold failures
  unfold read at h
  split at h
  case h_1 eq =>
    obtain ⟨-, rfl⟩ := Prod.mk.inj h
    rw [eq]
  case h_2 limit script eq =>
    obtain ⟨-, rfl⟩ := Prod.mk.inj h
    rw [eq]
    rfl
  case h_3 => simp at h

/-- A request that is repeated until it is answered fails with the first of the
failures to come, or meets none. -/
theorem failures_of_pull {outcome : Except SourceError (Array UInt8)}
    (h : source.pull room = (outcome, source')) :
    source.failures = (match outcome with | .error error => [error] | .ok _ => [])
      ++ source'.failures := by
  rw [← failures_skipInterruptions]
  cases outcome with
  | ok chunk => exact (failures_of_read h).symm
  | error error =>
    have other : error.kind ≠ .interrupted := (fail_of_pull h).2.2.1
    unfold pull read at h
    split at h
    case h_1 => simp at h
    case h_2 => simp at h
    case h_3 error' script eq =>
      obtain ⟨failed, rfl⟩ := Prod.mk.inj h
      obtain rfl := Except.error.inj failed
      have loud : Reply.failure? (.fail error') = some error' := if_neg other
      unfold failures
      rw [eq, List.filterMap_cons_some loud]
      rfl

/-- **A source is reliable if no failure is to come.** -/
theorem reliable_iff : source.Reliable ↔ source.failures = [] := by
  rw [failures, List.filterMap_eq_nil_iff]
  constructor
  · intro h reply mem
    cases reply with
    | give limit => rfl
    | fail error => exact if_pos (h error mem)
  · intro h error mem
    by_contra other
    have loud : Reply.failure? (.fail error) = some error := if_neg other
    exact absurd (loud.symm.trans (h _ mem)) nofun

/-- A failure that comes out is the first of those to come. -/
theorem Meets.head?_eq {error : SourceError}
    (h : source.Meets (.error (.source error) : Except Fault α) source') :
    source.failures.head? = some error :=
  congrArg List.head? h

/-- An operation during which no failure is met does not fail. -/
theorem Meets.raised_eq_none {outcome : Except Fault α} (h : source.Meets outcome source')
    (calm : source'.failures = source.failures) : raised outcome = none := by
  have length := congrArg List.length h
  rw [List.length_append, calm] at length
  cases failed : raised outcome with
  | none => rfl
  | some error =>
    rw [failed] at length
    simp at length

end Source

/-! ## Windows -/

namespace Window

open Source

variable {window window' : Window}

theorem meets_refill {wanted : Nat} {outcome : Except Fault Unit}
    (e : window.refill wanted = (outcome, window')) :
    window.source.Meets outcome window'.source := by
  unfold refill at e
  split at e
  all_goals
    rename_i pulled
    obtain ⟨rfl, rfl⟩ := Prod.mk.inj e
    exact failures_of_pull pulled

theorem meets_ensure {position : Nat} {outcome : Except Fault Bool}
    (e : window.ensure position = (outcome, window')) :
    window.source.Meets outcome window'.source := by
  fun_induction ensure window position with
  | case1 | case4 =>
    obtain ⟨rfl, rfl⟩ := Prod.mk.inj e
    exact rfl
  | case2 window missing more fault failed refilled =>
    obtain ⟨rfl, rfl⟩ := Prod.mk.inj e
    exact meets_refill refilled
  | case3 window missing more next refilled ih =>
    have calm : window.source.failures = next.source.failures := meets_refill refilled
    exact calm.trans (ih e)

theorem meets_byteAt {index : Nat} {outcome : Except Fault (Option UInt8)}
    (e : window.byteAt index = (outcome, window')) :
    window.source.Meets outcome window'.source := by
  unfold byteAt at e
  split at e
  · obtain ⟨rfl, rfl⟩ := Prod.mk.inj e
    exact rfl
  · split at e
    all_goals
      rename_i ensured
      obtain ⟨rfl, rfl⟩ := Prod.mk.inj e
      exact meets_ensure ensured

theorem meets_range {start stop : Nat} {outcome : Except Fault Span}
    (e : window.range start stop = (outcome, window')) :
    window.source.Meets outcome window'.source := by
  unfold range at e
  split at e
  · obtain ⟨rfl, rfl⟩ := Prod.mk.inj e
    exact rfl
  · split at e
    · obtain ⟨rfl, rfl⟩ := Prod.mk.inj e
      exact rfl
    · split at e
      all_goals
        rename_i ensured
        obtain ⟨rfl, rfl⟩ := Prod.mk.inj e
        exact meets_ensure ensured

theorem meets_slice {start stop : Nat} {outcome : Except Fault Bytes}
    (e : window.slice start stop = (outcome, window')) :
    window.source.Meets outcome window'.source := by
  unfold slice at e
  split at e
  all_goals
    rename_i ranged
    obtain ⟨rfl, rfl⟩ := Prod.mk.inj e
    exact meets_range ranged

theorem meets_search {find : Array UInt8 → Nat → Option Nat} {overlap start : Nat}
    {outcome : Except Fault (Option Nat)}
    (e : window.search find overlap start = (outcome, window')) :
    window.source.Meets outcome window'.source := by
  fun_induction search window find overlap start with
  | case1 =>
    obtain ⟨rfl, rfl⟩ := Prod.mk.inj e
    exact rfl
  | case2 window start nothing fault failed ensured =>
    obtain ⟨rfl, rfl⟩ := Prod.mk.inj e
    exact meets_ensure ensured
  | case3 window start nothing last ensured =>
    obtain ⟨rfl, rfl⟩ := Prod.mk.inj e
    exact meets_ensure ensured
  | case4 window start nothing next ensured ih =>
    have calm : window.source.failures = next.source.failures := meets_ensure ensured
    exact calm.trans (ih e)

theorem meets_discardBefore {position : Nat} {outcome : Except Fault Unit}
    (e : window.discardBefore position = (outcome, window')) :
    window.source.Meets outcome window'.source := by
  unfold discardBefore at e
  split at e
  · rename_i ensured
    obtain ⟨rfl, rfl⟩ := Prod.mk.inj e
    exact meets_ensure ensured
  · rename_i ensured
    split at e
    all_goals
      obtain ⟨rfl, rfl⟩ := Prod.mk.inj e
      exact meets_ensure ensured

end Window

/-! ## Cursors -/

namespace Streaming

variable {stream stream' : Streaming}

theorem meets_advance {count : Nat} {outcome : Except Fault Unit}
    (e : stream.advance count = (outcome, stream')) :
    stream.window.source.Meets outcome stream'.window.source := by
  unfold advance at e
  dsimp only at e
  split at e
  · rename_i ensured
    obtain ⟨rfl, rfl⟩ := Prod.mk.inj e
    exact Window.meets_ensure ensured
  · rename_i ensured
    obtain ⟨rfl, rfl⟩ := Prod.mk.inj e
    exact Window.meets_ensure ensured
  · rename_i window ensured
    obtain ⟨rfl, rfl⟩ := Prod.mk.inj e
    have calm : stream.window.source.failures = window.source.failures :=
      Window.meets_ensure ensured
    exact calm.trans (Window.meets_discardBefore rfl)

theorem meets_skipHeld {outcome : Except Fault Unit} (e : stream.skipHeld = (outcome, stream')) :
    stream.window.source.Meets outcome stream'.window.source := by
  unfold skipHeld at e
  split at e
  all_goals obtain ⟨rfl, rfl⟩ := Prod.mk.inj e
  · exact Window.meets_discardBefore rfl
  · exact rfl

theorem meets_skipRest {outcome : Except Fault Unit} (e : stream.skipRest = (outcome, stream')) :
    stream.window.source.Meets outcome stream'.window.source := by
  fun_induction skipRest stream with
  | case1 stream fault failed skipped =>
    obtain ⟨rfl, rfl⟩ := Prod.mk.inj e
    exact meets_skipHeld skipped
  | case2 stream held skipped fault window ensured
  | case3 stream held skipped window ensured =>
    obtain ⟨rfl, rfl⟩ := Prod.mk.inj e
    have calm : stream.window.source.failures = held.window.source.failures :=
      meets_skipHeld skipped
    exact calm.trans (Window.meets_ensure ensured)
  | case4 stream held skipped window ensured ih =>
    have calm : stream.window.source.failures = held.window.source.failures :=
      meets_skipHeld skipped
    have calm' : held.window.source.failures = window.source.failures :=
      Window.meets_ensure ensured
    exact (calm.trans calm').trans (ih e)

/-- **An answer meets the first of the failures to come**, which is the answer
then, or none. What comes next is shown as far as it can be had, so that answer
hides the failure and is left out. -/
theorem meets_answer (stream : Streaming) (query : Query)
    (shown : ∀ count, query ≠ .preview count) :
    stream.window.source.Meets (stream.answer query).1 (stream.answer query).2.window.source := by
  cases query with
  | peek offset => exact Window.meets_byteAt rfl
  | advance count => exact meets_advance rfl
  | slice start stop => exact Window.meets_slice rfl
  | find needle start =>
    have met : stream.window.source.Meets
        (stream.window.search (fun held => findBytes held needle) (needle.length - 1)
          (stream.position + start)).1 _ := Window.meets_search rfl
    exact met.trans (by rw [answer, search, raised_map]; rfl)
  | findEither a b start =>
    have met : stream.window.source.Meets
        (stream.window.search (fun held => TableDump.findEither held a b) 0
          (stream.position + start)).1 _ := Window.meets_search rfl
    exact met.trans (by rw [answer, search, raised_map]; rfl)
  | skipRest => exact meets_skipRest rfl
  | preview count => exact absurd rfl (shown count)

end Streaming

end TableDump
