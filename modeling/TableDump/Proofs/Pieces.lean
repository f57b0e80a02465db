import Mathlib
import TableDump.Proofs.Boundaries
import TableDump.Proofs.Effects
import TableDump.Proofs.Utf8

/-!
# A dump can be fed in pieces

A session keeps what it knows of the tables from one dump to the next, and a reader
begins each dump anew. So it makes no difference whether a session works through a
dump as a whole or through two pieces of it, one after the other, if the dump is cut
behind a statement (`Session.fed_in_turn`). Only the places in a fault count from the
start of the piece that it is found in.

There is more than one way to work through a dump (`Session.Fed`). The dump may be in
memory or come from a source, and the statements may be handed to the session one by
one. All come to the same: the statements of the course are handled until one is
refused, and then there is the ending (`Session.Fed.eq_concluded`).

The cut is a place among bytes, and pieces of a text are texts. What makes a place
behind a statement a place between characters is the semicolon there
(`Utf8.exists_split_of_ascii`).
-/

namespace TableDump

open InMemory (between)

variable {σ ε : Type}

/-! ## Ways of feeding a session -/

namespace Session

/-- **What comes of a text that is fed to a session**, in one of the ways to do so. -/
inductive Fed (sink : Sink σ ε) (session : Session σ) (text : String) :
    Except ε Tally × Session σ → Prop where
  /-- As a dump in memory. -/
  | text : Fed sink session text (session.extractText sink text)
  /-- As a dump that comes from a source that does not fail. -/
  | source {script : List Reply} (honest : KeepsGiving (bytesOf text).size script)
      (reliable : ∀ error, Reply.fail error ∈ script → error.kind = .interrupted) :
      Fed sink session text (session.extractSource sink { bytes := bytesOf text, script })
  /-- Statement by statement, for as long as none is refused. -/
  | statements {statements : List Statement} {ending : Except Fault Unit}
      (course : (Reader.ofBytes (bytesOf text) session.settings).Course statements ending) :
      Fed sink session text
        (concluded sink.ofFault ending tally (handOver (handle sink) statements session))

/-- **What comes of two texts that are fed to a session in turn**: the second one only
if nothing is wrong with the first. -/
inductive FedInTurn (sink : Sink σ ε) (session : Session σ) (front back : String) :
    Except ε Tally × Session σ → Prop where
  | refused {error : ε} {session' : Session σ}
      (first : Fed sink session front (.error error, session')) :
      FedInTurn sink session front back (.error error, session')
  | both {seen : Tally} {session' : Session σ} {result : Except ε Tally × Session σ}
      (first : Fed sink session front (.ok seen, session'))
      (second : Fed sink session' back result) : FedInTurn sink session front back result

variable {sink : Sink σ ε} {session : Session σ}

/-- **All ways of feeding come to the same.** -/
theorem Fed.eq_concluded {text : String} {result : Except ε Tally × Session σ}
    (fed : Fed sink session text result) {statements : List Statement}
    {ending : Except Fault Unit}
    (course : (Reader.ofBytes (bytesOf text) session.settings).Course statements ending) :
    result = concluded sink.ofFault ending tally (handOver (handle sink) statements session) := by
  have inMemory : session.extractText sink text
      = concluded sink.ofFault ending tally (handOver (handle sink) statements session) := by
    have started : Reader.Course { cursor := between [] (bytesOf text).toList,
                                   settings := session.settings, statements := 0 }
      statements ending := course
    exact course.extract_eq started.length_le sink session
  cases fed with
  | text => exact inMemory
  | source honest reliable =>
    rw [← inMemory]
    exact Streaming.lockstep.extract (Reader.alike_ofSource honest reliable session.settings)
      sink session
  | statements course' =>
    obtain ⟨rfl, rfl⟩ := course.unique course'
    rfl

/-- **Two texts that are fed in turn** come to the same as the statements of both, if
the first can be read to its end. -/
theorem FedInTurn.eq_concluded {front back : String} {result : Except ε Tally × Session σ}
    (fed : FedInTurn sink session front back result) {before behind : List Statement}
    {ending : Except Fault Unit}
    (first : (Reader.ofBytes (bytesOf front) session.settings).Course before (.ok ()))
    (second : (Reader.ofBytes (bytesOf back) session.settings).Course behind ending) :
    result = concluded sink.ofFault ending tally
      (handOver (handle sink) (before ++ behind) session) := by
  rw [handOver_append]
  have settings := handOver_settings sink before session
  cases fed with
  | refused fed =>
    have result := fed.eq_concluded first
    generalize handOver (handle sink) before session = handed at result ⊢
    rcases handed with ⟨refusal | _, later⟩
    · exact result
    · exact absurd (Prod.mk.inj result).1 nofun
  | both fed fed' =>
    have result := fed.eq_concluded first
    generalize handOver (handle sink) before session = handed at settings result ⊢
    rcases handed with ⟨refusal | _, later⟩
    · exact absurd (Prod.mk.inj result).1 nofun
    · obtain ⟨-, rfl⟩ := Prod.mk.inj result
      exact fed'.eq_concluded (settings ▸ second)

end Session

/-! ## Pieces of a text -/

/-- **A text can be cut where its bytes can**, at the end or behind a semicolon. -/
theorem exists_pieces {text : String} {source rest : Bytes}
    (split : (bytesOf text).toList = source ++ rest)
    (ends : [ascii ';'] <:+ source ∨ rest = []) :
    ∃ front back, text = front ++ back ∧ (bytesOf front).toList = source
      ∧ (bytesOf back).toList = rest := by
  rcases ends with ⟨source, rfl⟩ | rfl
  · rw [Utf8.toList_bytesOf, List.append_assoc] at split
    obtain ⟨before, after, chars, rfl, rfl⟩ := Utf8.exists_split_of_ascii (by decide) split
    refine ⟨.ofList (before ++ [';']), .ofList after, ?_, ?_, ?_⟩
    · rw [← String.ofList_append, List.append_assoc, List.singleton_append, ← chars,
        String.ofList_toList]
    · rw [Utf8.toList_bytesOf, String.toList_ofList, Utf8.encode_append]
      rfl
    · rw [Utf8.toList_bytesOf, String.toList_ofList]
  · exact ⟨text, "", String.append_empty.symm, split.trans (List.append_nil _), rfl⟩

namespace Session

/-- **A dump can be fed in pieces.** If a statement of a text ends at some place, the
text has a piece up to there and one from there on. A session that is fed the two
pieces, in whatever way each, comes to the same end as one that is fed the whole: the
same statements are handled, until one is refused, so the sink has been told the same,
and the session knows the same and has seen the same. Behind the statements there is
the same ending. If it is a fault, its places in the whole are those in the second piece
and the length of the first. -/
theorem fed_in_turn (sink : Sink σ ε) (session : Session σ) (text : String) {count : Nat}
    {statement : Statement} {place : Nat}
    (boundary : ((Reader.ofBytes (bytesOf text) session.settings).transcript (count + 1)).getLast?
      = some (.ok (some statement), place)) :
    ∃ front back, text = front ++ back ∧ (bytesOf front).size = place
      ∧ ∃ statements ending,
        (Reader.ofBytes (bytesOf text) session.settings).Course statements
            (ending.mapError (Fault.displaced place))
          ∧ ∀ whole pieces, Fed sink session text whole → FedInTurn sink session front back pieces →
            let handled := handOver (handle sink) statements session
            whole.2 = pieces.2
              ∧ whole = concluded sink.ofFault (ending.mapError (Fault.displaced place)) tally handled
              ∧ pieces = concluded sink.ofFault ending tally handled := by
  obtain ⟨passed, source, rest, -, rfl, split, ends, passes⟩ := Reader.exists_cut boundary
  obtain ⟨front, back, text_eq, front_eq, back_eq⟩ := exists_pieces split ends
  obtain ⟨behind, ending, second, -⟩ := Reader.exists_course session.settings [] rest 0
  have first := (passes [] (.inr rfl)).course
    (Reader.course_of_dump source (0 + passed.length) (.intro .nil .nil))
  have displaced := second.displaced source (0 + passed.length)
  rw [List.append_nil] at displaced
  have course := (passes rest (.inl rfl)).course displaced
  rw [← split, Array.toArray_toList] at course
  rw [List.append_nil, List.append_nil, ← front_eq, Array.toArray_toList] at first
  have second' : (Reader.ofBytes (bytesOf back) session.settings).Course behind ending := by
    rw [← back_eq] at second
    exact second
  refine ⟨front, back, text_eq, by rw [← Array.length_toList, front_eq], _, ending, course, ?_⟩
  intro whole pieces fed fedInTurn handled
  have whole_eq := fed.eq_concluded course
  have pieces_eq := fedInTurn.eq_concluded first second'
  refine ⟨?_, whole_eq, pieces_eq⟩
  rw [whole_eq, pieces_eq]
  rcases handOver (handle sink) (passed.map Prod.fst ++ behind) session with ⟨refusal | _, later⟩
  · rfl
  · cases ending <;> rfl

/-- A text with a semicolon and a character of two bytes in it, and behind the statement
a group that is left open. -/
theorem fed_in_turn_text :
    let text := "'é;';("
    let session : Session Collected := { selection := .all, sinkState := {} }
    ((Reader.ofBytes (bytesOf text)).transcript 1).getLast?
        = some (.ok (some ⟨[.text "é;"]⟩), 6)
      ∧ ∃ front back, text = front ++ back ∧ (bytesOf front).size = 6
        ∧ ∃ statements ending,
          (Reader.ofBytes (bytesOf text)).Course statements
              (ending.mapError (Fault.displaced 6))
            ∧ ∀ whole pieces, Fed .collecting session text whole →
              FedInTurn .collecting session front back pieces →
              let handled := handOver (handle .collecting) statements session
              whole.2 = pieces.2
                ∧ whole = concluded id (ending.mapError (Fault.displaced 6)) tally handled
                ∧ pieces = concluded id ending tally handled := by
  intro text session
  have boundary : ((Reader.ofBytes (bytesOf text)).transcript 1).getLast?
      = some (.ok (some ⟨[.text "é;"]⟩), 6) := by cbv
  exact ⟨boundary, fed_in_turn .collecting session text boundary⟩

end Session

end TableDump
