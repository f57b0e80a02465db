import Mathlib
import TableDump.Proofs.Counting
import TableDump.Proofs.Following

/-!
# Calls to a cursor over a source

A cursor over a source may be called in any order, and its source may fail at
any request. Each call that comes to an end gives what it would give in memory
at the same place, and goes to the same place. A call in which the source fails
leaves the cursor where it was – in the same relation to the input as before –
so that it can be made again; only skipping may have gone some of its way
(`Streaming.refines_after`).

There is one difference. Over a source an offset is added to the position of the
cursor, whatever is asked for, and a call that reaches beyond all numbers comes
to nothing. In memory a byte is looked for among those in front of the cursor,
and behind the last of them there is none, however far
(`Streaming.peek_largest`).

An excerpt is the exception: it does not fail. What it shows is a beginning of
what comes next, and that is all of it if the source does not fail meanwhile.

Among the calls are two that ask several questions, for the end of a run and
whether there is more. They do not move the cursor, so a failure in between
leaves it in its place also (`Agrees.bind`).
-/

namespace TableDump

/-! ## Calls -/

/-- **What a cursor may be called for.** -/
inductive Call where
  | peek (offset : Nat)
  | advance (count : Nat)
  | slice (start stop : Nat)
  /-- There is no search for nothing. -/
  | find (needle : Bytes) (ne_nil : needle ≠ []) (start : Nat)
  | findEither (a b : UInt8) (start : Nat)
  | spanEnd (member : UInt8 → Bool) (start : Nat)
  | skipRest
  | atEnd
  /-- The text of up to `count` bytes that come next. -/
  | excerpt (count : Nat)

namespace Call

/-- What a call gives. -/
abbrev Answer : Call → Type
  | peek _ => Option UInt8
  | advance _ => Unit
  | slice _ _ => Bytes
  | find _ _ _ => Option Nat
  | findEither _ _ _ => Option Nat
  | spanEnd _ _ => Nat
  | skipRest => Unit
  | atEnd => Bool
  | excerpt _ => String

/-- How a call is answered. -/
def scan : (call : Call) → Scan call.Answer
  | peek offset => Scan.peek offset
  | advance count => Scan.advance count
  | slice start stop => Scan.slice start stop
  | find needle _ start => Scan.find needle start
  | findEither a b start => Scan.findEither a b start
  | spanEnd member start => Scan.spanEnd member start
  | skipRest => Scan.skipRest
  | atEnd => Scan.atEnd
  | excerpt count => do return Utf8.decode (← Scan.preview count)

/-- **Carries a call out**, if all its sums are numbers. -/
def run? {κ : Type} [Cursor κ] (call : Call) (cursor : κ) :
    Option (Except Fault call.Answer × κ) :=
  call.scan.run? cursor

/-- How far a call reaches beyond the position of the cursor. -/
def reach : Call → Nat
  | peek offset => (Query.peek offset).reach
  | advance count => (Query.advance count).reach
  | slice start stop => (Query.slice start stop).reach
  | find needle _ start => (Query.find needle start).reach
  | findEither a b start => (Query.findEither a b start).reach
  | spanEnd _ start => (Query.peek start).reach
  | skipRest => Query.skipRest.reach
  | atEnd => (Query.peek 0).reach
  | excerpt count => (Query.preview count).reach

/-- How far it does in memory. -/
def reachInMemory : Call → Nat
  | advance count => (Query.advance count).reachInMemory
  | slice start stop => (Query.slice start stop).reachInMemory
  | peek _ | find _ _ _ | findEither _ _ _ | spanEnd _ _ | skipRest | atEnd | excerpt _ => 0

/-- That is not further than over a source. -/
theorem reachInMemory_le (call : Call) : call.reachInMemory ≤ call.reach := by
  cases call with
  | advance count => exact (Query.advance count).reachInMemory_le
  | slice start stop => exact (Query.slice start stop).reachInMemory_le
  | peek | find | findEither | spanEnd | skipRest | atEnd | excerpt => exact Nat.zero_le _

/-- **What goes by the parts of a reading holds of a call**, unless it shows an
excerpt. -/
theorem of_parts {settings : Settings} {holds : ∀ {α : Type}, Scan α → Prop}
    (parts : settings.Compositional holds) {call : Call}
    (excerpt : ∀ count, call ≠ .excerpt count) : holds call.scan := by
  cases call with
  | peek offset => exact parts.peek offset
  | advance count => exact parts.advance count
  | slice start stop => exact parts.slice start stop
  | find needle ne_nil start => exact parts.ask _ ne_nil nofun
  | findEither a b start => exact parts.findEither a b start
  | spanEnd member start => exact parts.spanEnd member start
  | skipRest => exact parts.skipRest
  | atEnd => exact parts.atEnd
  | excerpt count => exact absurd rfl (excerpt count)

end Call

/-- The cursor after some calls, whatever comes of them. One that comes to nothing is
the last. -/
def Streaming.after : (calls : List Call) → Streaming → Streaming
  | [], stream => stream
  | call :: calls, stream =>
    match call.run? stream with
    | none => stream
    | some (_, next) => next.after calls

namespace Streaming

variable {α β : Type} {stream stream' : Streaming} {memory : InMemory}

/-- A step behind the floor there is a position after any calls. -/
theorem counted_after {bytes : Array UInt8} (h : stream.window.Counted bytes)
    (calls : List Call) : (stream.after calls).window.Counted bytes := by
  induction calls generalizing stream with
  | nil => exact h
  | cons call calls ih =>
    rw [Streaming.after]
    split
    case h_1 => exact h
    case h_2 ran =>
      have next := counted_run h call.scan
      rw [Scan.run_of_run? ran] at next
      exact ih next

/-! ## Calls that ask several questions -/

namespace Agrees

/-- What is so later is so now. -/
theorem of_later {onStream : Except Fault α × Streaming} {inMemory : Except Fault α × InMemory}
    (kept : stream.window.source.Reliable → stream'.window.source.Reliable)
    (h : Agrees stream' memory onStream inMemory) : Agrees stream memory onStream inMemory := by
  cases h with
  | same mirrors kept' => exact .same mirrors (kept' ∘ kept)
  | failed unreliable mirrors => exact .failed (unreliable ∘ kept) mirrors

/-- A call that is one question. -/
theorem ask {query : Query}
    (h : Agrees stream memory (stream.answer query) (memory.answer query)) :
    Agrees stream memory ((Scan.ask query Scan.done).run stream)
      ((Scan.ask query Scan.done).run memory) := by
  rw [Scan.run_ask, Scan.run_ask]
  exact h

/-- **A sequence agrees** if its parts do and the first one does not move the
cursor: a failure of the second leaves it where it was in the beginning. -/
theorem bind {first : Scan α} {next : α → Scan β} {value : α}
    (answered : first.run memory = (.ok value, memory))
    (hfirst : Agrees stream memory (first.run stream) (first.run memory))
    (hnext : ∀ stream' : Streaming, stream'.Mirrors memory →
      Agrees stream' memory ((next value).run stream') ((next value).run memory)) :
    Agrees stream memory ((first >>= next).run stream) ((first >>= next).run memory) := by
  rw [Scan.run_bind, Scan.run_bind]
  rw [answered] at hfirst ⊢
  generalize first.run stream = onStream at hfirst
  cases hfirst with
  | same mirrors kept => exact (hnext _ mirrors).of_later kept
  | failed unreliable mirrors => exact .failed unreliable mirrors

end Agrees

namespace Mirrors

theorem agrees_spanFrom (h : stream.Mirrors memory) (member : UInt8 → Bool) (start fuel : Nat) :
    Agrees stream memory ((Scan.spanFrom member start fuel).run stream)
      ((Scan.spanFrom member start fuel).run memory) := by
  induction fuel generalizing stream start with
  | zero => exact .same h id
  | succ fuel ih =>
    rw [Scan.spanFrom]
    have answered : (Scan.peek start).run memory
        = (.ok memory.bytes[memory.position + start]?, memory) := rfl
    refine Agrees.bind answered (.ask (h.agrees_peek start)) fun stream' h' => ?_
    split
    · exact .same h' id
    · split
      · exact ih h' (start + 1)
      · exact .same h' id

theorem agrees_spanEnd (h : stream.Mirrors memory) (member : UInt8 → Bool) (start : Nat) :
    Agrees stream memory ((Scan.spanEnd member start).run stream)
      ((Scan.spanEnd member start).run memory) := by
  rw [Scan.spanEnd, Scan.run_bind_ok (Scan.run_left _), Scan.run_bind_ok (Scan.run_left _)]
  rw [show Cursor.left stream = Cursor.left memory from h.left_eq]
  exact h.agrees_spanFrom member start _

theorem agrees_atEnd (h : stream.Mirrors memory) :
    Agrees stream memory (Scan.atEnd.run stream) (Scan.atEnd.run memory) :=
  Agrees.bind rfl (.ask (h.agrees_peek 0)) fun _ h' => .same h' id

/-- **A call comes to the same as in memory**, or the source fails and the
cursor stays where it is. -/
theorem agrees_call (h : stream.Mirrors memory) {call : Call} (skip : call ≠ .skipRest)
    (excerpt : ∀ count, call ≠ .excerpt count) :
    Agrees stream memory (call.scan.run stream) (call.scan.run memory) := by
  cases call with
  | peek offset | advance count | slice start stop | findEither a b start =>
    exact .ask (h.agrees _ trivial nofun nofun)
  | find needle ne_nil start => exact .ask (h.agrees _ ne_nil nofun nofun)
  | spanEnd member start => exact h.agrees_spanEnd member start
  | atEnd => exact h.agrees_atEnd
  | skipRest => exact absurd rfl skip
  | excerpt count => exact absurd rfl (excerpt count)

/-- **An excerpt shows a beginning of what comes next**, and all of it if the
source does not fail meanwhile. -/
theorem run_excerpt (h : stream.Mirrors memory) (count : Nat) :
    ∃ shown stream', (Call.excerpt count).scan.run stream = (.ok (Utf8.decode shown), stream')
      ∧ stream'.Mirrors memory ∧ shown <+: memory.ahead.take count
      ∧ (stream'.window.source.failures = stream.window.source.failures →
        shown = memory.ahead.take count) := by
  obtain ⟨shown, stream', eq, mirrors, isPrefix, -, all⟩ := h.preview count
  have answered : (Scan.preview count).run stream = (.ok shown, stream') :=
    (Scan.run_ask _ _).trans eq
  refine ⟨shown, stream', ?_, mirrors, isPrefix, all⟩
  show (Scan.preview count >>= fun ahead => pure (Utf8.decode ahead)).run stream = _
  rw [Scan.run_bind_ok answered, Scan.run_pure]

/-- **What comes of a call** that shows no excerpt: the same as in memory, or
the source fails. Then the cursor is where it was, or has skipped some of the
input. -/
theorem carried (h : stream.Mirrors memory) {call : Call}
    (excerpt : ∀ count, call ≠ .excerpt count) :
    ((call.scan.run stream).1 = (call.scan.run memory).1
        ∧ (call.scan.run stream).2.Mirrors (call.scan.run memory).2)
      ∨ ∃ error position, (call.scan.run stream).1 = .error (.source error)
          ∧ (call.scan.run stream).2.Mirrors { memory with position }
          ∧ memory.position ≤ position ∧ (call ≠ .skipRest → position = memory.position) := by
  by_cases skip : call = .skipRest
  · subst skip
    have run : Call.skipRest.scan.run stream = stream.skipRest := Scan.run_ask _ _
    rw [run]
    rcases h.skipRest rfl with ⟨ok, there, -⟩ | ⟨-, ⟨error, failed⟩, position, further, there⟩
    · exact .inl ⟨ok, there⟩
    · exact .inr ⟨error, position, failed, there, further, absurd rfl⟩
  · have agrees := h.agrees_call skip excerpt
    generalize call.scan.run stream = onStream at agrees ⊢
    generalize call.scan.run memory = inMemory at agrees ⊢
    cases agrees with
    | same mirrors kept => exact .inl ⟨rfl, mirrors⟩
    | @failed error _ _ unreliable mirrors =>
      exact .inr ⟨error, memory.position, rfl, mirrors, le_rfl, fun _ => rfl⟩

/-- **Whatever comes of a call**, the cursor stands somewhere in the input. -/
theorem call (h : stream.Mirrors memory) (call : Call) :
    ∃ position, (call.scan.run stream).2.Mirrors { memory with position } := by
  by_cases excerpt : ∃ count, call = .excerpt count
  · obtain ⟨count, rfl⟩ := excerpt
    obtain ⟨shown, stream', run, mirrors, -⟩ := h.run_excerpt count
    rw [run]
    exact ⟨memory.position, mirrors⟩
  · rcases h.carried (not_exists.1 excerpt) with ⟨-, mirrors⟩ | ⟨-, position, -, mirrors, -⟩
    · refine ⟨(call.scan.run memory).2.position, ?_⟩
      rw [← memory.bytes_run call.scan]
      exact mirrors
    · exact ⟨position, mirrors⟩

/-- After any calls the cursor stands somewhere in the same input. -/
theorem after (h : stream.Mirrors memory) (calls : List Call) :
    ∃ position, (stream.after calls).Mirrors { memory with position } := by
  induction calls generalizing stream memory with
  | nil => exact ⟨memory.position, h⟩
  | cons call calls ih =>
    rw [Streaming.after]
    split
    case h_1 => exact ⟨memory.position, h⟩
    case h_2 next ran =>
      obtain ⟨position, there⟩ := h.call call
      rw [Scan.run_of_run? ran] at there
      obtain ⟨position', there'⟩ := ih there
      exact ⟨position', there'⟩

/-! ### Calls that come to something -/

section

variable (counted : stream.window.Counted memory.bytes)
  (inMemory : memory.bytes.size ≤ Index.mostBytes)
include counted inMemory

/-- A question comes to nothing if it reaches beyond all numbers. -/
theorem answer?_eq (h : stream.Mirrors memory) (query : Query) :
    stream.answer? query = if Index.largest < stream.position + query.reach then none
      else some (stream.answer query) :=
  Streaming.answer?_eq counted inMemory (h.floor_le.trans_eq h.position_eq.symm)
    (h.position_eq.trans_le h.position_le_size) query

/-- A call that is one question does so as well. -/
theorem run?_ask (h : stream.Mirrors memory) (query : Query) :
    (Scan.ask query Scan.done).run? stream = if Index.largest < stream.position + query.reach
      then none else some ((Scan.ask query Scan.done).run stream) := by
  rw [Scan.run?_ask, Scan.run_ask]
  exact h.answer?_eq counted inMemory query

/-- **The end of a run is found** if its beginning is: the positions behind it that are looked
at are those of bytes, and the one after them. -/
theorem run?_spanFrom (h : stream.Mirrors memory) (member : UInt8 → Bool) {start : Nat}
    (within : stream.position + (start + 1) ≤ Index.largest) (fuel : Nat) :
    (Scan.spanFrom member start fuel).run? stream
      = some ((Scan.spanFrom member start fuel).run stream) := by
  induction fuel generalizing stream start with
  | zero => rfl
  | succ fuel ih =>
    rw [Scan.spanFrom]
    refine Scan.run?_bind_eq_some ?_ fun byte next put => ?_
    · exact (h.run?_ask counted inMemory (.peek start)).trans (if_neg (Nat.not_lt.2 within))
    · have asked := counted_run counted (Scan.peek start)
      have agrees : Agrees stream memory ((Scan.peek start).run stream)
        (.ok memory.bytes[memory.position + start]?, memory) := .ask (h.agrees_peek start)
      rw [put] at asked agrees
      cases agrees with
      | same mirrors =>
        split
        case h_1 => rfl
        case h_2 byte found =>
          split
          · obtain ⟨there, -⟩ := Array.getElem?_eq_some_iff.1 found
            have next := Index.add_le_largest inMemory (show 1 ≤ Index.mostBytes by decide)
            refine ih asked mirrors ?_
            rw [mirrors.position_eq]
            omega
          · rfl

/-- **A call comes to nothing only if it reaches beyond all numbers.** -/
theorem run?_eq (h : stream.Mirrors memory) (call : Call) :
    call.run? stream = if Index.largest < stream.position + call.reach then none
      else some (call.scan.run stream) := by
  have within : stream.position + 1 ≤ Index.largest :=
    Index.add_le_largest ((h.position_eq.trans_le h.position_le_size).trans inMemory) (by decide)
  cases call with
  | peek offset | advance count | slice start stop | find needle ne_nil start
  | findEither a b start | skipRest => exact h.run?_ask counted inMemory _
  | spanEnd member start =>
    show (Scan.spanFrom member start (Cursor.left stream + 1)).run? stream
      = if Index.largest < stream.position + (start + 1) then none else _
    split
    case isTrue beyond =>
      have asked : (Scan.peek start).run? stream = none :=
        (h.run?_ask counted inMemory (.peek start)).trans (if_pos beyond)
      rw [Scan.spanFrom, Scan.run?_bind, asked]
    case isFalse enough => exact h.run?_spanFrom counted inMemory member (Nat.not_lt.1 enough) _
  | atEnd =>
    refine Eq.trans ?_ (if_neg (Nat.not_lt.2 within)).symm
    refine Scan.run?_bind_eq_some ?_ fun byte next put => rfl
    exact (h.run?_ask counted inMemory (.peek 0)).trans (if_neg (Nat.not_lt.2 within))
  | excerpt count =>
    have here : ¬ Index.largest < stream.position + 0 := by omega
    refine Eq.trans ?_ (if_neg here).symm
    refine Scan.run?_bind_eq_some ?_ fun bytes next put => rfl
    exact (h.run?_ask counted inMemory (.preview count)).trans (if_neg here)

end

end Mirrors

end Streaming

namespace InMemory

variable {memory : InMemory}

/-- In memory the end of a run is always found. -/
theorem run?_spanFrom (member : UInt8 → Bool) (start fuel : Nat) :
    (Scan.spanFrom member start fuel).run? memory
      = some ((Scan.spanFrom member start fuel).run memory) := by
  induction fuel generalizing start with
  | zero => rfl
  | succ fuel ih =>
    rw [Scan.spanFrom]
    refine Scan.run?_bind_eq_some rfl fun byte next put => ?_
    obtain ⟨-, rfl⟩ := Prod.mk.inj put
    split
    · rfl
    · split
      · exact ih (start + 1)
      · rfl

/-- **In memory a call comes to nothing only if it is about a range** that ends beyond all
numbers. -/
theorem run?_eq (inMemory : memory.bytes.size ≤ Index.mostBytes)
    (inside : memory.position ≤ memory.bytes.size) (call : Call) :
    call.run? memory = if Index.largest < memory.position + call.reachInMemory then none
      else some (call.scan.run memory) := by
  have ask : ∀ query, (Scan.ask query Scan.done).run? memory
      = if Index.largest < memory.position + query.reachInMemory then none
        else some ((Scan.ask query Scan.done).run memory) := by
    intro query
    rw [Scan.run?_ask, Scan.run_ask]
    exact answer?_eq inMemory inside query
  have here : ¬ Index.largest < memory.position + 0 :=
    Nat.not_lt.2 (inside.trans (inMemory.trans (by decide)))
  cases call with
  | peek offset | advance count | slice start stop | find needle ne_nil start
  | findEither a b start | skipRest => exact ask _
  | spanEnd member start => exact (run?_spanFrom member start _).trans (if_neg here).symm
  | atEnd => exact Eq.symm (if_neg here)
  | excerpt count => exact Eq.symm (if_neg here)

end InMemory

namespace Streaming

variable {stream : Streaming} {memory : InMemory}

/-! ## Whole runs -/

/-- **The cursor is as good as one in memory** that stands at the same place. -/
structure Refines (stream : Streaming) (bytes : Array UInt8) : Prop where
  /-- It stands in the input. -/
  position_le : stream.position ≤ bytes.size
  /-- A call comes to nothing exactly if it reaches beyond all numbers. -/
  unanswered : ∀ call : Call,
    call.run? stream = none ↔ Index.largest < stream.position + call.reach
  /-- In memory that is so as well, but there calls do not reach as far. -/
  inMemory_unanswered : ∀ call : Call, call.run? (InMemory.mk bytes stream.position) = none
    ↔ Index.largest < stream.position + call.reachInMemory
  /-- A call that comes to something, and in which the source does not fail, comes to
  the same in memory. -/
  answered : ∀ (call : Call) outcome next, (∀ count, call ≠ .excerpt count) →
    call.run? stream = some (outcome, next) → (∀ error, outcome ≠ .error (.source error)) →
    ∃ memory, call.run? (InMemory.mk bytes stream.position) = some (outcome, memory)
      ∧ next.position = memory.position
  /-- A call in which it fails ends with the first failure, and leaves the cursor
  in its place. Skipping may have gone on, but not out of the input. -/
  failed : ∀ (call : Call) error next, call.run? stream = some (.error (.source error), next) →
    stream.window.source.failures.head? = some error
      ∧ stream.position ≤ next.position
      ∧ next.position ≤ bytes.size
      ∧ (call ≠ .skipRest → next.position = stream.position)
  /-- An excerpt shows a beginning of what comes next, and all of it if no
  failure is met. It leaves the cursor in its place. -/
  excerpt : ∀ count, ∃ shown next,
    (Call.excerpt count).run? stream = some (.ok (Utf8.decode shown), next)
      ∧ shown <+: (bytes.toList.drop stream.position).take count
      ∧ next.position = stream.position
      ∧ (next.window.source.failures = stream.window.source.failures →
        shown = (bytes.toList.drop stream.position).take count)
  /-- The end of a run in memory is where the bytes of the class end. -/
  runs : ∀ (member : UInt8 → Bool) (start : Nat),
    ((Call.spanEnd member start).run? (InMemory.mk bytes stream.position)).map Prod.fst
      = some (.ok (start
        + (((bytes.toList.drop stream.position).drop start).takeWhile member).length))

/-- A cursor that stands in its window as one in memory does in the input. -/
theorem Mirrors.refines (h : stream.Mirrors memory)
    (counted : stream.window.Counted memory.bytes)
    (inMemory : memory.bytes.size ≤ Index.mostBytes) : stream.Refines memory.bytes where
  position_le := h.position_eq.trans_le h.position_le_size
  unanswered call := by
    rw [h.run?_eq counted inMemory call]
    exact ite_eq_left_iff.trans (by simp)
  inMemory_unanswered call := by
    rw [h.position_eq, memory.run?_eq inMemory h.position_le_size call]
    exact ite_eq_left_iff.trans (by simp)
  answered call outcome next excerpt ran unfailing := by
    have run := Scan.run_of_run? ran
    rw [h.position_eq]
    rcases h.carried excerpt with ⟨same, mirrors⟩ | ⟨error, position, failed, -⟩
    · have within : ¬ Index.largest < stream.position + call.reach := by
        intro beyond
        rw [h.run?_eq counted inMemory call, if_pos beyond] at ran
        cases ran
      have less := call.reachInMemory_le
      rw [run] at same mirrors
      refine ⟨(call.scan.run memory).2, ?_, mirrors.position_eq⟩
      rw [h.position_eq] at within
      rw [memory.run?_eq inMemory h.position_le_size call, if_neg (by omega)]
      exact congrArg some (Prod.ext same.symm rfl)
    · rw [run] at failed
      exact absurd failed (unfailing error)
  failed call error next ran := by
    have run := Scan.run_of_run? ran
    by_cases excerpt : ∃ count, call = .excerpt count
    · obtain ⟨count, rfl⟩ := excerpt
      obtain ⟨shown, stream', run', -⟩ := h.run_excerpt count
      rw [run'] at run
      simp at run
    · have unfailing : InMemory.Unfailing call.scan :=
        Call.of_parts (InMemory.compositional_unfailing {}) (not_exists.1 excerpt)
      have follows : Follows memory.bytes {} stream (call.scan.run stream) (call.scan.run memory) :=
        Call.of_parts (compositional_follows {}) (not_exists.1 excerpt) h
      have first := follows.head?_eq (unfailing memory error) (congrArg Prod.fst run)
      rcases h.carried (not_exists.1 excerpt) with
        ⟨same, -⟩ | ⟨-, position, -, mirrors, further, here⟩
      · rw [run] at same
        exact absurd same.symm (unfailing memory error)
      · rw [run] at mirrors
        rw [h.position_eq, mirrors.position_eq]
        exact ⟨first, further, mirrors.position_le_size, here⟩
  excerpt count := by
    obtain ⟨shown, stream', run, mirrors, isPrefix, all⟩ := h.run_excerpt count
    have here : ¬ Index.largest < stream.position + 0 := by
      have inside := h.position_eq.trans_le h.position_le_size
      exact Nat.not_lt.2 (inside.trans (inMemory.trans (by decide)))
    have ran : (Call.excerpt count).run? stream = some (.ok (Utf8.decode shown), stream') := by
      rw [h.run?_eq counted inMemory, run]
      exact if_neg here
    rw [h.position_eq]
    exact ⟨shown, stream', ran, isPrefix, mirrors.position_eq, all⟩
  runs member start := by
    rw [h.position_eq]
    have ran : (Scan.spanEnd member start).run
        (InMemory.between (memory.bytes.toList.take memory.position) memory.ahead) = _ :=
      Scan.run_spanEnd member start
    rw [← InMemory.eq_between h.position_le_size] at ran
    have answered : (Call.spanEnd member start).run? memory
        = some ((Scan.spanEnd member start).run memory) := InMemory.run?_spanFrom member start _
    exact congrArg (Option.map Prod.fst) (answered.trans (congrArg some ran))

/-- **A cursor over a source that may fail is as good as one in memory**, after
any calls whatever. The source gives its bytes in pieces of any size, fails at
any requests, and answers with nothing only when all has been given. The bytes are
such as memory can hold, and the step of the window is a number. -/
theorem refines_after (bytes : Array UInt8) (script : List Reply) (sizing : Window.Sizing)
    (honest : KeepsGiving bytes.size script) (inMemory : bytes.size ≤ Index.mostBytes)
    (step_le : sizing.step ≤ Index.largest) (calls : List Call) :
    ((ofSource { bytes, script } sizing).after calls).Refines bytes := by
  have counted : ((ofSource { bytes, script } sizing).after calls).window.Counted bytes :=
    counted_after (.ofSource script step_le) calls
  obtain ⟨position, mirrors⟩ := (Mirrors.ofSource sizing honest).after calls
  exact mirrors.refines counted inMemory

/-- A source that fails once, at the second request. The call for a byte that it
fails in is made again, and gives the byte. -/
theorem refines_after_brokenPipe :
    KeepsGiving (bytesOf "-- x").size [.give 2, .fail .brokenPipe, .give 1]
      ∧ (bytesOf "-- x").size ≤ Index.mostBytes
      ∧ (let stream := ofSource { bytes := bytesOf "-- x",
                                  script := [.give 2, .fail .brokenPipe, .give 1] }
        (stream.after [.advance 1, .peek 2]).Refines (bytesOf "-- x")
          ∧ ((Call.peek 2).run? (stream.after [.advance 1])).map Prod.fst
            = some (.error (.source .brokenPipe))
          ∧ ((Call.peek 2).run? (stream.after [.advance 1, .peek 2])).map Prod.fst
            = some (.ok (some (ascii 'x')))) := by
  have honest : KeepsGiving (bytesOf "-- x").size [.give 2, .fail .brokenPipe, .give 1] := by
    simp [KeepsGiving]
  have inMemory : (bytesOf "-- x").size ≤ Index.mostBytes := by decide
  exact ⟨honest, inMemory, refines_after _ _ _ honest inMemory (by decide) _, by cbv, by cbv⟩

/-- **In memory a byte at the largest offset is looked for and not found**, and over a source
it is not looked for: where the source ends does not come in. At the offset before it the two
cursors agree. -/
theorem peek_largest :
    let stream := ofSource { bytes := bytesOf "abc" }
    let memory : InMemory := { bytes := bytesOf "abc" }
    stream.position = memory.position
      ∧ ((Call.peek (Index.largest - 1)).run? stream).map Prod.fst = some (.ok none)
      ∧ ((Call.peek Index.largest).run? memory).map Prod.fst = some (.ok none)
      ∧ (Call.peek Index.largest).run? stream = none := by
  exact ⟨by cbv, by cbv, by cbv, by cbv⟩

end Streaming

end TableDump
