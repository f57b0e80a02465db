import Mathlib
import TableDump.Proofs.Questions
import TableDump.Proofs.Streaming
import TableDump.Session

/-!
# Reading a source is reading its bytes

However a source cuts its bytes into pieces, what is read from them is what is
read from all of them in memory. Two cursors that stay in step
(`Lockstep`) cannot be told apart by any reading, so neither can readers that
hold them, nor a session that works through what the readers give.

The claim is about every reader of statements at once, call by call: a
`Reader.transcript` is what the first calls for a statement give, with the place
where each of them leaves the reader. It goes on behind the end and behind a
fault, where there is nothing more to be given.
-/

namespace TableDump

variable {κ κ' σ ε : Type} [Cursor κ] [Cursor κ']

namespace Reader

/-- **What the first `count` calls for a statement give**, and where each of
them leaves the reader. -/
def transcript : (count : Nat) → Reader κ → List (Except Fault (Option Statement) × Nat)
  | 0, _ => []
  | count + 1, reader => (reader.next.1, reader.next.2.position) :: transcript count reader.next.2

/-- **The statement is handed out by one of the calls for a statement**, however many
there are. -/
def Emits (reader : Reader κ) (statement : Statement) : Prop :=
  ∃ count place, (.ok (some statement), place) ∈ reader.transcript count

section

variable {reader reader' : Reader κ} {statement : Statement}

/-- The first call may do it. -/
theorem Emits.of_next (here : reader.next = (.ok (some statement), reader')) :
    reader.Emits statement := by
  refine ⟨1, reader'.position, ?_⟩
  rw [transcript, here]
  exact List.mem_cons_self

/-- Or a later one. -/
theorem Emits.of_later {found : Except Fault (Option Statement)}
    (here : reader.next = (found, reader')) (later : reader'.Emits statement) :
    reader.Emits statement := by
  obtain ⟨count, place, mem⟩ := later
  refine ⟨count + 1, place, ?_⟩
  rw [transcript, here]
  exact List.mem_cons_of_mem _ mem

/-- There is nothing behind the end. -/
theorem transcript_of_finished (finished : reader.finished = true) (count : Nat) :
    reader.transcript count = List.replicate count (.ok none, reader.position) := by
  have here : reader.next = (.ok none, reader) := by rw [next, if_pos finished]
  induction count with
  | zero => rfl
  | succ count ih => rw [transcript, here, ih, List.replicate_succ]

/-- So no statement is handed out there. -/
theorem not_emits_of_finished (finished : reader.finished = true) (statement : Statement) :
    ¬ reader.Emits statement := by
  rintro ⟨count, place, mem⟩
  rw [transcript_of_finished finished] at mem
  exact absurd (List.eq_of_mem_replicate mem) (by simp)

/-- A call that hands out nothing is the last one that does anything. -/
theorem finished_of_next {found : Except Fault (Option Statement)}
    (here : reader.next = (found, reader')) (none : ∀ statement, found ≠ .ok (some statement)) :
    reader'.finished = true := by
  unfold next at here
  split at here
  case isTrue finished =>
    obtain ⟨-, rfl⟩ := Prod.mk.inj here
    exact finished
  case isFalse =>
    split at here
    · obtain ⟨rfl, -⟩ := Prod.mk.inj here
      exact absurd rfl (none _)
    · obtain ⟨-, rfl⟩ := Prod.mk.inj here
      rfl

end

/-- Readers that differ in their cursors only, and these are related. -/
structure Alike (related : κ → κ' → Prop) (first : Reader κ) (second : Reader κ') : Prop where
  cursor : related first.cursor second.cursor
  settings_eq : first.settings = second.settings
  statements_eq : first.statements = second.statements
  finished_eq : first.finished = second.finished

end Reader

namespace Lockstep

variable {related : κ → κ' → Prop} {first : Reader κ} {second : Reader κ'}

/-- **Readers with cursors in step give the same statement**, or fail alike,
and stay alike. -/
theorem next (step : Lockstep Query.Sensible related) (h : first.Alike related second) :
    first.next.1 = second.next.1 ∧ first.next.2.Alike related second.next.2 := by
  unfold Reader.next
  rw [h.finished_eq, h.settings_eq]
  split
  · exact ⟨rfl, h⟩
  · obtain ⟨same, after⟩ := step.run second.settings.asks_scanStatement h.cursor
    revert same after
    rcases second.settings.scanStatement.run first.cursor with ⟨outcome, cursor⟩
    rcases second.settings.scanStatement.run second.cursor with ⟨outcome', cursor'⟩
    intro same after
    obtain rfl : outcome = outcome' := same
    rcases outcome with fault | (_ | statement)
    · exact ⟨rfl, after, rfl, h.statements_eq, rfl⟩
    · exact ⟨rfl, after, rfl, h.statements_eq, rfl⟩
    · exact ⟨rfl, after, rfl, congrArg (· + 1) h.statements_eq, rfl⟩

/-- They give the same statements for as long as they are asked. -/
theorem transcript (step : Lockstep Query.Sensible related) (h : first.Alike related second)
    (count : Nat) : first.transcript count = second.transcript count := by
  induction count generalizing first second with
  | zero => rfl
  | succ count ih =>
    obtain ⟨same, after⟩ := step.next h
    rw [Reader.transcript, Reader.transcript, same, ih after, Reader.position, Reader.position,
      step.position_eq after.cursor]

/-- They give the same statements to whoever wants all of them. -/
theorem collectWithin (step : Lockstep Query.Sensible related) (h : first.Alike related second)
    (fuel : Nat) (before : List Statement) :
    Reader.collectWithin fuel before first = Reader.collectWithin fuel before second := by
  induction fuel generalizing first second before with
  | zero => rfl
  | succ fuel ih =>
    obtain ⟨same, after⟩ := step.next h
    rw [Reader.collectWithin, Reader.collectWithin]
    revert same after
    rcases first.next with ⟨outcome, first'⟩
    rcases second.next with ⟨outcome', second'⟩
    intro same after
    obtain rfl : outcome = outcome' := same
    rcases outcome with fault | (_ | statement)
    · rfl
    · rfl
    · exact ih after _

theorem collect (step : Lockstep Query.Sensible related) (h : first.Alike related second) :
    first.collect = second.collect := by
  unfold Reader.collect
  rw [step.left_eq h.cursor]
  exact step.collectWithin h _ _

/-- Whoever they hand their statements to ends in the same state. -/
theorem driveWithin (step : Lockstep Query.Sensible related) (h : first.Alike related second)
    (handle : Statement → σ → Except ε Unit × σ) (ofFault : Fault → ε) (fuel count : Nat)
    (state : σ) :
    let onFirst := Reader.driveWithin handle ofFault fuel count first state
    let onSecond := Reader.driveWithin handle ofFault fuel count second state
    onFirst.1 = onSecond.1 ∧ onFirst.2.2 = onSecond.2.2 := by
  induction fuel generalizing first second count state with
  | zero => exact ⟨rfl, rfl⟩
  | succ fuel ih =>
    obtain ⟨same, after⟩ := step.next h
    rw [Reader.driveWithin, Reader.driveWithin]
    revert same after
    rcases first.next with ⟨outcome, first'⟩
    rcases second.next with ⟨outcome', second'⟩
    intro same after
    obtain rfl : outcome = outcome' := same
    rcases outcome with fault | (_ | statement)
    · exact ⟨rfl, rfl⟩
    · exact ⟨rfl, rfl⟩
    · dsimp only
      -- both get the same statement in the same state
      rcases handle statement state with ⟨_ | _, state'⟩
      · exact ⟨rfl, rfl⟩
      · exact ih after _ _

/-- **A session comes to the same end with both of them.** -/
theorem extract (step : Lockstep Query.Sensible related) (h : first.Alike related second)
    (sink : Sink σ ε) (session : Session σ) :
    session.extract sink first = session.extract sink second := by
  have alike := step.driveWithin h (Session.handle sink) sink.ofFault
    (Cursor.left second.cursor + 1) 0 session
  unfold Session.extract Reader.drive
  rw [step.left_eq h.cursor]
  dsimp only at alike
  generalize Reader.driveWithin (Session.handle sink) sink.ofFault _ 0 first session
    = onFirst at alike ⊢
  generalize Reader.driveWithin (Session.handle sink) sink.ofFault _ 0 second session
    = onSecond at alike ⊢
  obtain ⟨outcome, reader, session⟩ := onFirst
  obtain ⟨outcome', reader', session'⟩ := onSecond
  obtain ⟨rfl, rfl⟩ : outcome = outcome' ∧ session = session' := alike
  cases outcome <;> rfl

end Lockstep

/-- A reader of a source and a reader of its bytes start alike. -/
theorem Reader.alike_ofSource {bytes : Array UInt8} {script : List Reply}
    (honest : KeepsGiving bytes.size script)
    (reliable : ∀ error, Reply.fail error ∈ script → error.kind = .interrupted)
    (settings : Settings) :
    (Reader.ofSource { bytes, script } settings).Alike
      (fun stream memory => stream.Mirrors memory ∧ stream.window.source.Reliable)
      (Reader.ofBytes bytes settings) :=
  ⟨⟨.ofSource settings.sizing honest, reliable⟩, rfl, rfl, rfl⟩

/-- **Reading a source is reading its bytes.** A source that gives its bytes in
pieces of any size, is interrupted any number of times, and answers with nothing
only when all has been given, is read like its bytes in memory: the same
statements, places and faults, call by call, whatever the sizes of the window.
So a session that works through it hands the same events to its sink, comes to
the same end, and knows the same afterwards. -/
theorem reading_ofSource (bytes : Array UInt8) (script : List Reply)
    (honest : KeepsGiving bytes.size script)
    (reliable : ∀ error, Reply.fail error ∈ script → error.kind = .interrupted) :
    (∀ (settings : Settings) (count : Nat),
        (Reader.ofSource { bytes, script } settings).transcript count
          = (Reader.ofBytes bytes settings).transcript count)
      ∧ ∀ {σ ε : Type} (sink : Sink σ ε) (session : Session σ) (text : String),
          bytes = bytesOf text →
          session.extractSource sink { bytes, script } = session.extractText sink text := by
  constructor
  · intro settings count
    exact Streaming.lockstep.transcript (Reader.alike_ofSource honest reliable settings) count
  · rintro σ ε sink session text rfl
    exact Streaming.lockstep.extract (Reader.alike_ofSource honest reliable session.settings)
      sink session

/-- An insertion that comes in three bytes, an interruption, a byte and the
rest. -/
theorem reading_insertion_ofSource :
    KeepsGiving (bytesOf "INSERT INTO t VALUES (1);").size
        [.give 3, .fail .interruption, .give 1]
      ∧ (∀ error, Reply.fail error ∈ [.give 3, .fail .interruption, .give 1] →
          error.kind = .interrupted)
      ∧ (∀ (settings : Settings) (count : Nat),
          (Reader.ofSource
              { bytes := bytesOf "INSERT INTO t VALUES (1);",
                script := [.give 3, .fail .interruption, .give 1] } settings).transcript count
            = (Reader.ofBytes (bytesOf "INSERT INTO t VALUES (1);") settings).transcript count)
      ∧ ∀ {σ ε : Type} (sink : Sink σ ε) (session : Session σ),
          session.extractSource sink
              { bytes := bytesOf "INSERT INTO t VALUES (1);",
                script := [.give 3, .fail .interruption, .give 1] }
            = session.extractText sink "INSERT INTO t VALUES (1);" := by
  have honest : KeepsGiving (bytesOf "INSERT INTO t VALUES (1);").size
      [.give 3, .fail .interruption, .give 1] := by
    simp [KeepsGiving]
  have reliable : ∀ error, Reply.fail error ∈ [.give 3, .fail .interruption, .give 1] →
      error.kind = .interrupted := by
    simp
  obtain ⟨calls, sessions⟩ := reading_ofSource _ _ honest reliable
  exact ⟨honest, reliable, calls, fun sink session => sessions sink session _ rfl⟩

end TableDump
