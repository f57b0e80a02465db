import Mathlib
import TableDump.Proofs.Course
import TableDump.Proofs.Following

/-!
# Reading a source that fails

The reading of one statement follows the one in memory to the first failure of
the source, at most (`Streaming.Mirrors.follows_scanStatement`). Up to there the
readers are at the same place. So the statements that are handed out are the
first ones of those in memory, and behind them is the same ending, or the
failure, or the same fault with less of an excerpt – exactly one of these
(`exists_course_ofSource`). What cannot be is an end of the input where the
source failed.
-/

namespace TableDump

/-! ## Whole readings -/

/-- The ways in which the reading of a source may end. -/
inductive Way where
  | undisturbed
  | failed
  | cut
  deriving DecidableEq

/-- **What they are**, given the failures to come and the course of the reading
in memory: the same course, or the first of the failures, or a fault behind the
same statements that shows less of the input. -/
def Way.Taken (bytes : Array UInt8) (settings : Settings) (failures : List SourceError)
    (statements : List Statement) (ending : Except Fault Unit) (whole : List Statement)
    (wholeEnding : Except Fault Unit) : Way → Prop
  | undisturbed => statements = whole ∧ ending = wholeEnding
  | failed => ∃ error, failures.head? = some error ∧ ending = .error (.source error)
  | cut =>
    statements = whole ∧ ending ≠ wholeEnding ∧ failures ≠ []
      ∧ ∃ fault fault', ending = .error fault ∧ wholeEnding = .error fault'
        ∧ fault.Shortens bytes settings.excerptLength fault'

namespace Way.Taken

variable {bytes : Array UInt8} {settings : Settings} {failures : List SourceError}
  {statements whole : List Statement} {ending wholeEnding : Except Fault Unit} {way way' : Way}

/-- **There is one way only**, since a reading in memory does not fail for its
source. -/
theorem unique (unfailing : ∀ error, wholeEnding ≠ .error (.source error))
    (h : way.Taken bytes settings failures statements ending whole wholeEnding)
    (h' : way'.Taken bytes settings failures statements ending whole wholeEnding) :
    way = way' := by
  have undisturbed_failed : ending = wholeEnding →
      ¬ ∃ error, failures.head? = some error ∧ ending = .error (.source error) := by
    rintro rfl ⟨error, -, failed⟩
    exact unfailing error failed
  have failed_cut : ∀ error, ending = .error (.source error) →
      ¬ ∃ fault fault', ending = .error fault ∧ wholeEnding = .error fault'
        ∧ fault.Shortens bytes settings.excerptLength fault' := by
    rintro error rfl ⟨fault, fault', failed, -, shortens⟩
    obtain rfl := Except.error.inj failed
    cases shortens
  cases way with
  | undisturbed =>
    cases way' with
    | undisturbed => rfl
    | failed => exact absurd h' (undisturbed_failed h.2)
    | cut => exact absurd h.2 h'.2.1
  | failed =>
    obtain ⟨error, first, failed⟩ := h
    cases way' with
    | undisturbed => exact absurd ⟨error, first, failed⟩ (undisturbed_failed h'.2)
    | failed => rfl
    | cut => exact absurd h'.2.2.2 (failed_cut error failed)
  | cut =>
    cases way' with
    | undisturbed => exact absurd h'.2 h.2.1
    | failed =>
      obtain ⟨error, -, failed⟩ := h'
      exact absurd h.2.2.2 (failed_cut error failed)
    | cut => rfl

/-- A statement that is read before makes no difference. -/
theorem cons (h : way.Taken bytes settings failures statements ending whole wholeEnding)
    (statement : Statement) :
    way.Taken bytes settings failures (statement :: statements) ending (statement :: whole)
      wholeEnding := by
  cases way with
  | undisturbed => exact ⟨congrArg _ h.1, h.2⟩
  | failed => exact h
  | cut => exact ⟨congrArg _ h.1, h.2⟩

/-- **The end of the input is found at the end of the input only.** -/
theorem of_ended (h : way.Taken bytes settings failures statements (.ok ()) whole wholeEnding) :
    statements = whole ∧ wholeEnding = .ok () := by
  cases way with
  | undisturbed => exact ⟨h.1, h.2.symm⟩
  | failed =>
    obtain ⟨error, -, failed⟩ := h
    exact absurd failed nofun
  | cut =>
    obtain ⟨-, -, -, fault, fault', failed, -⟩ := h
    exact absurd failed nofun

end Way.Taken

namespace Reader

/-- **The course of a reading over a source** that may fail, beside that in
memory. -/
theorem Course.follows {settings : Settings} {whole : List Statement}
    {wholeEnding : Except Fault Unit} {memory : InMemory} {stream : Streaming} {counted : Nat}
    (course : Course { cursor := memory, settings, statements := counted } whole wholeEnding)
    (h : stream.Mirrors memory) (counted' : Nat) :
    ∃ statements ending,
      Course { cursor := stream, settings, statements := counted' } statements ending
        ∧ statements <+: whole
        ∧ ∃ way : Way, way.Taken memory.bytes settings stream.window.source.failures statements
            ending whole wholeEnding := by
  obtain ⟨outcome, memory', ran, begins⟩ := course.exists_run
  have follows := h.follows_scanStatement settings
  have bytes_eq := memory.bytes_run settings.scanStatement
  rcases ran' : settings.scanStatement.run stream with ⟨outcome', stream'⟩
  rw [ran, ran'] at follows
  rw [ran] at bytes_eq
  cases follows with
  | @failed error _ _ first =>
    exact ⟨[], _, .of_failed ran', List.nil_prefix, .failed, error, first, rfl⟩
  | @cut fault fault' _ _ met shortens =>
    obtain ⟨rfl, rfl⟩ := begins
    refine ⟨[], _, .of_failed ran', List.prefix_rfl, ?_⟩
    -- the failure may have hidden nothing
    by_cases hidden : fault = fault'
    · exact ⟨.undisturbed, rfl, congrArg _ hidden⟩
    · exact ⟨.cut, rfl, fun same => hidden (Except.error.inj same), met, fault, fault', rfl, rfl,
        shortens⟩
  | same mirrors calm =>
    rcases outcome with fault | (_ | statement)
    · obtain ⟨rfl, rfl⟩ := begins
      exact ⟨[], _, .of_failed ran', List.prefix_rfl, .undisturbed, rfl, rfl⟩
    · obtain ⟨rfl, rfl⟩ := begins
      exact ⟨[], _, .of_ended ran', List.prefix_rfl, .undisturbed, rfl, rfl⟩
    · obtain ⟨others, rfl, further⟩ := begins
      obtain ⟨statements, ending, course', isPrefix, way, taken⟩ :=
        further.follows mirrors (counted' + 1)
      rw [show memory'.bytes = memory.bytes from bytes_eq, calm] at taken
      exact ⟨statement :: statements, ending, .of_read ran' course',
        List.cons_prefix_cons.2 ⟨rfl, isPrefix⟩, way, taken.cons statement⟩
termination_by whole.length

/-- A reading in memory does not end with a failure of a source. -/
theorem Course.ending_ne_source {settings : Settings} {statements : List Statement}
    {ending : Except Fault Unit} {memory : InMemory} {count : Nat}
    (course : Course { cursor := memory, settings, statements := count } statements ending)
    (error : SourceError) : ending ≠ .error (.source error) := by
  obtain ⟨outcome, memory', ran, begins⟩ := course.exists_run
  rcases outcome with fault | (_ | statement)
  · obtain ⟨rfl, rfl⟩ := begins
    have unfailing := (InMemory.compositional_unfailing settings).scanStatement memory error
    rw [ran] at unfailing
    intro failed
    exact unfailing (congrArg Except.error (Except.error.inj failed))
  · obtain ⟨rfl, rfl⟩ := begins
    exact nofun
  · obtain ⟨others, rfl, further⟩ := begins
    exact further.ending_ne_source error
termination_by statements.length

end Reader

/-- **A source that fails does not spoil what is read.** It gives its bytes in
pieces of any size, fails at any requests, and answers with nothing only when
all has been given. The statements that are read from it are the first ones of
those in its bytes. Behind them comes the same as in memory, or the first of the
failures, or the same fault with less of an excerpt, and only one of these. An
end of the input is one in memory, behind the same statements. What a session
hands to its sink is what it would hand over for these statements. -/
theorem exists_course_ofSource (bytes : Array UInt8) (script : List Reply)
    (honest : KeepsGiving bytes.size script) (settings : Settings) :
    ∃ statements ending whole wholeEnding,
      (Reader.ofSource { bytes, script } settings).Course statements ending
        ∧ (Reader.ofBytes bytes settings).Course whole wholeEnding
        ∧ statements <+: whole
        ∧ (∃! way : Way, way.Taken bytes settings (Source.failures { bytes, script }) statements
            ending whole wholeEnding)
        ∧ (ending = .ok () → statements = whole ∧ wholeEnding = .ok ())
        ∧ ∀ {σ ε : Type} (sink : Sink σ ε) (session : Session σ), session.settings = settings →
            session.extractSource sink { bytes, script }
              = concluded sink.ofFault ending Session.tally
                  (handOver (Session.handle sink) statements session) := by
  have mirrors := Streaming.Mirrors.ofSource settings.sizing honest
  obtain ⟨whole, wholeEnding, course, bound⟩ :=
    Reader.exists_course settings [] bytes.toList 0
  obtain ⟨statements, ending, course', isPrefix, way, taken⟩ :=
    course.follows mirrors 0
  have few : statements.length
      ≤ Cursor.left (Reader.ofSource { bytes, script } settings).cursor := by
    have left_eq : Cursor.left (Reader.ofSource { bytes, script } settings).cursor = bytes.size :=
      mirrors.left_eq
    rw [left_eq]
    exact isPrefix.length_le.trans bound
  refine ⟨statements, ending, whole, wholeEnding, course', course, isPrefix, ⟨way, taken, ?_⟩, ?_,
    ?_⟩
  · exact fun way' taken' => taken'.unique course.ending_ne_source taken
  · rintro rfl
    exact taken.of_ended
  · rintro σ ε sink session rfl
    exact course'.extract_eq few sink session

/-- An empty statement and three bytes that no token begins with, the last of
which is not to be had when the fault is to show them. -/
theorem course_brokenPipe :
    KeepsGiving (bytesOf ";###").size [.give 3, .fail .brokenPipe]
      ∧ (Reader.ofSource { bytes := bytesOf ";###",
                           script := [.give 3, .fail .brokenPipe] }).Course [{ tokens := [] }]
          (.error (.malformed (.unexpectedCharacter '#') { offset := 1, excerpt := "##" }))
      ∧ (Reader.ofBytes (bytesOf ";###")).Course [{ tokens := [] }]
          (.error (.malformed (.unexpectedCharacter '#') { offset := 1, excerpt := "###" }))
      ∧ ∃! way : Way, way.Taken (bytesOf ";###") {} [.brokenPipe]
          [{ tokens := [] }]
          (.error (.malformed (.unexpectedCharacter '#') { offset := 1, excerpt := "##" }))
          [{ tokens := [] }]
          (.error (.malformed (.unexpectedCharacter '#') { offset := 1, excerpt := "###" })) := by
  have honest : KeepsGiving (bytesOf ";###").size [.give 3, .fail .brokenPipe] := by
    simp [KeepsGiving]
  have course : (Reader.ofSource { bytes := bytesOf ";###",
                                   script := [.give 3, .fail .brokenPipe] }).Course
      [{ tokens := [] }]
      (.error (.malformed (.unexpectedCharacter '#') { offset := 1, excerpt := "##" })) :=
    .read (Prod.ext (by cbv) rfl) (.failed (Prod.ext (by cbv) rfl))
  have inMemory : (Reader.ofBytes (bytesOf ";###")).Course [{ tokens := [] }]
      (.error (.malformed (.unexpectedCharacter '#') { offset := 1, excerpt := "###" })) :=
    .read (Prod.ext (by cbv) rfl) (.failed (Prod.ext (by cbv) rfl))
  obtain ⟨_, _, _, _, read, whole, -, way, -⟩ := exists_course_ofSource _ _ honest {}
  obtain ⟨rfl, rfl⟩ := read.unique course
  obtain ⟨rfl, rfl⟩ := whole.unique inMemory
  exact ⟨honest, course, inMemory, way⟩

end TableDump
