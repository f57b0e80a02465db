import Mathlib
import TableDump.Proofs.Statements
import TableDump.Session

/-!
# The course of a reading

A reader hands out statements until there is an end of it: the input has ended,
or there is a fault. These statements and the ending are the *course* of its
reading (`Reader.Course`), and a reader has no other (`Reader.Course.unique`).

Whoever is handed the statements one by one sees the course and nothing else of
the reader. So a session that works through them is the handling of a list,
until one of them is refused, and behind the list the ending
(`Reader.Course.extract_eq`).

The loop that hands out statements is bounded by the number of bytes. In memory
each statement takes some of them, so the bound is never met: every reader has a
course, with no more statements than bytes (`Reader.exists_course`).
-/

namespace TableDump

open Grammar
open InMemory (between)

variable {κ σ ε : Type}

/-! ## Handing over a list -/

/-- **Hands statements to `handle`**, one after the other, until one is
refused. -/
def handOver (handle : Statement → σ → Except ε Unit × σ) :
    List Statement → σ → Except ε Unit × σ
  | [], state => (.ok (), state)
  | statement :: statements, state =>
    match handle statement state with
    | (.error refusal, state) => (.error refusal, state)
    | (.ok (), state) => handOver handle statements state

/-- What comes of statements that were handed over, and of the ending behind
them, of which `value` is made if it is no fault. -/
def concluded {α : Type} (ofFault : Fault → ε) (ending : Except Fault Unit) (value : σ → α) :
    Except ε Unit × σ → Except ε α × σ
  | (.error refusal, state) => (.error refusal, state)
  | (.ok (), state) =>
    match ending with
    | .error fault => (.error (ofFault fault), state)
    | .ok () => (.ok (value state), state)

namespace Reader

variable [Cursor κ]

/-- **The course of a reading**: the statements that a reader hands out, and
what is behind the last of them. -/
inductive Course : Reader κ → List Statement → (ending : Except Fault Unit) → Prop where
  | ended {reader reader' : Reader κ} (here : reader.next = (.ok none, reader')) :
      Course reader [] (.ok ())
  | failed {reader reader' : Reader κ} {fault : Fault}
      (here : reader.next = (.error fault, reader')) : Course reader [] (.error fault)
  | read {reader reader' : Reader κ} {statement : Statement} {statements : List Statement}
      {ending : Except Fault Unit} (here : reader.next = (.ok (some statement), reader'))
      (further : Course reader' statements ending) : Course reader (statement :: statements) ending

namespace Course

variable {reader : Reader κ} {statements statements' : List Statement}
  {ending ending' : Except Fault Unit}

/-- **There is one course only.** -/
theorem unique (h : reader.Course statements ending) (h' : reader.Course statements' ending') :
    statements = statements' ∧ ending = ending' := by
  induction h generalizing statements' with
  | ended here =>
    cases h' with
    | ended here' => exact ⟨rfl, rfl⟩
    | failed here' | read here' => simp [here] at here'
  | failed here =>
    cases h' with
    | failed here' =>
      rw [here] at here'
      cases here'
      exact ⟨rfl, rfl⟩
    | ended here' | read here' => simp [here] at here'
  | read here further ih =>
    cases h' with
    | read here' further' =>
      rw [here] at here'
      cases here'
      obtain ⟨rfl, rfl⟩ := ih further'
      exact ⟨rfl, rfl⟩
    | ended here' | failed here' => simp [here] at here'

/-- **What comes of handing out the statements of a reader** depends on its
course alone. -/
theorem driveWithin_eq (course : reader.Course statements ending) {fuel : Nat}
    (enough : statements.length < fuel) (handle : Statement → σ → Except ε Unit × σ)
    (ofFault : Fault → ε) (count : Nat) (state : σ) :
    let driven := driveWithin handle ofFault fuel count reader state
    (driven.1, driven.2.2) = concluded ofFault ending (fun _ => count + statements.length)
      (handOver handle statements state) := by
  induction course generalizing fuel count state with
  | ended here | failed here =>
    obtain ⟨fuel, rfl⟩ := Nat.exists_eq_add_one.2 (Nat.zero_lt_of_lt enough)
    rw [driveWithin, here]
    rfl
  | @read reader reader' statement statements ending here further ih =>
    obtain ⟨fuel, rfl⟩ := Nat.exists_eq_add_one.2 (Nat.zero_lt_of_lt enough)
    rw [driveWithin, here, handOver]
    dsimp only
    rcases handle statement state with ⟨_ | _, state'⟩
    · rfl
    · rw [List.length_cons, ← Nat.add_assoc, Nat.add_right_comm]
      exact ih (Nat.lt_of_succ_lt_succ enough) (count + 1) state'

/-- **A session handles the statements of the course**, until one fails, and
meets the ending behind them. -/
theorem extract_eq (course : reader.Course statements ending)
    (enough : statements.length ≤ Cursor.left reader.cursor) (sink : Sink σ ε)
    (session : Session σ) :
    session.extract sink reader = concluded sink.ofFault ending Session.tally
      (handOver (Session.handle sink) statements session) := by
  have driven := course.driveWithin_eq (Nat.lt_succ_of_le enough) (Session.handle sink)
    sink.ofFault 0 session
  unfold Session.extract drive
  dsimp only at driven
  generalize driveWithin (Session.handle sink) sink.ofFault _ 0 reader session = ran at driven ⊢
  generalize handOver (Session.handle sink) statements session = handed at driven ⊢
  obtain ⟨outcome, reader', session'⟩ := ran
  rcases handed with ⟨refusal | _, handled⟩
  · obtain ⟨rfl, rfl⟩ := Prod.mk.inj driven
    rfl
  · obtain rfl : session' = handled := by
      cases ending <;> exact (Prod.mk.inj driven).2
    cases ending with
    | error fault | ok _ =>
      obtain rfl : outcome = _ := (Prod.mk.inj driven).1
      rfl

end Course

/-! ## One statement of a course -/

section

variable {cursor cursor' : κ} {settings : Settings} {count : Nat}

/-- There is nothing more to be read. -/
theorem Course.of_ended (ran : settings.scanStatement.run cursor = (.ok none, cursor')) :
    Course { cursor, settings, statements := count } [] (.ok ()) := by
  have here : next { cursor, settings, statements := count }
      = (.ok none, { cursor := cursor', settings, statements := count, finished := true }) := by
    rw [next, ran]
    rfl
  exact .ended here

/-- The reading fails. -/
theorem Course.of_failed {fault : Fault}
    (ran : settings.scanStatement.run cursor = (.error fault, cursor')) :
    Course { cursor, settings, statements := count } [] (.error fault) := by
  have here : next { cursor, settings, statements := count }
      = (.error fault, { cursor := cursor', settings, statements := count, finished := true }) := by
    rw [next, ran]
    rfl
  exact .failed here

/-- A statement is read, and others behind it. -/
theorem Course.of_read {statement : Statement} {statements : List Statement}
    {ending : Except Fault Unit}
    (ran : settings.scanStatement.run cursor = (.ok (some statement), cursor'))
    (further : Course { cursor := cursor', settings, statements := count + 1 } statements ending) :
    Course { cursor, settings, statements := count } (statement :: statements) ending := by
  refine .read ?_ further
  rw [next, ran]
  rfl

/-- **A course begins with one of these.** -/
theorem Course.exists_run {statements : List Statement} {ending : Except Fault Unit}
    (course : Course { cursor, settings, statements := count } statements ending) :
    ∃ outcome cursor', settings.scanStatement.run cursor = (outcome, cursor')
      ∧ match outcome with
        | .error fault => statements = [] ∧ ending = .error fault
        | .ok none => statements = [] ∧ ending = .ok ()
        | .ok (some statement) => ∃ others, statements = statement :: others
          ∧ Course { cursor := cursor', settings, statements := count + 1 } others ending := by
  rcases ran : settings.scanStatement.run cursor with ⟨fault | (_ | statement), cursor'⟩
  · exact ⟨_, _, rfl, course.unique (.of_failed ran)⟩
  · exact ⟨_, _, rfl, course.unique (.of_ended ran)⟩
  · refine ⟨_, _, rfl, ?_⟩
    cases course with
    | ended here | failed here =>
      rw [next, ran] at here
      cases here
    | @read _ _ _ others _ here further =>
      rw [next, ran] at here
      cases here
      exact ⟨others, rfl, further⟩

end

/-! ## In memory -/

/-- **Every reading in memory comes to an end**, and each of its statements has
taken a byte at least. -/
theorem exists_course (settings : Settings) (before input : Bytes) (count : Nat) :
    ∃ statements ending,
      Course { cursor := between before input, settings, statements := count } statements ending
        ∧ statements.length ≤ input.length := by
  induction shorter : input.length using Nat.strong_induction_on
    generalizing before input count with
  | h length ih =>
    have recognizes := settings.recognizes_scanStatement before input
    rcases ran : settings.scanStatement.run (between before input)
      with ⟨fault | (_ | statement), cursor⟩
    · exact ⟨[], .error fault, .of_failed ran, Nat.zero_le _⟩
    · exact ⟨[], .ok (), .of_ended ran, Nat.zero_le _⟩
    · obtain ⟨_, rest, rfl, ⟨absurd, -⟩ | ⟨_, blanks, source, ⟨⟩, rfl, -, first⟩, rfl⟩ :=
        (recognizes (some statement) cursor).1 ran
      · simp at absurd
      · have taken : 0 < source.length := List.length_pos_of_ne_nil first.ne_nil
        have less : rest.length < length := by
          rw [← shorter, List.length_append, List.length_append]
          omega
        obtain ⟨statements, ending, course, bound⟩ :=
          ih rest.length less (before ++ (blanks ++ source)) rest (count + 1) rfl
        refine ⟨statement :: statements, ending, .of_read ran course, ?_⟩
        rw [List.length_cons]
        omega

/-- There are no more statements than bytes. -/
theorem Course.length_le {settings : Settings} {before input : Bytes} {count : Nat}
    {statements : List Statement} {ending : Except Fault Unit}
    (course : Course { cursor := between before input, settings, statements := count } statements
      ending) : statements.length ≤ input.length := by
  obtain ⟨statements', ending', course', bound⟩ := exists_course settings before input count
  obtain ⟨rfl, rfl⟩ := course.unique course'
  exact bound

/-- **A dump in memory is read to its end**, statement by statement. -/
theorem course_of_dump (before : Bytes) (count : Nat) {settings : Settings}
    {statements : List Statement} {input : Bytes} (h : Dump settings.maxDepth statements input) :
    Course { cursor := between before input, settings, statements := count } statements
      (.ok ()) := by
  induction statements generalizing before input count with
  | nil =>
    rcases run_of_dump before h with ⟨-, cursor, ran⟩ | ⟨_, _, _, _, absurd, -⟩
    · exact .of_ended ran
    · simp at absurd
  | cons statement statements ih =>
    rcases run_of_dump before h with ⟨absurd, -⟩ | ⟨_, _, source, rest, split, rfl, -, behind, ran⟩
    · simp at absurd
    · obtain ⟨rfl, rfl⟩ := List.cons.inj split
      exact .of_read ran (ih (before ++ source) (count + 1) behind)

end Reader

end TableDump
