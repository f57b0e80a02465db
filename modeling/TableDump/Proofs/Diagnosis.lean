import Mathlib
import TableDump.Proofs.SameReading
import TableDump.Proofs.Statements

/-!
# A fault points at what is wrong

When a dump cannot be read on, the fault says where, and what is wrong there. Both are
true (`Reader.precise_ofBytes_ofSource`): the place is reached by blanks, tokens and
marks of the dump, and what the fault names is what stands there
(`Grammar.Stuck`). Nothing of it has been read over, although a quoted text is searched
for its end, and a number read to its last digit, before either of them is refused. So
the fault, the excerpt in it and the reader itself all agree about the place.

The argument has the shape of a logic of programs. A reading starts at a place that was
reached (`Settings.Reached`), and either it reaches another one, or it is stuck where it
says (`Settings.Comes`); that is closed under sequence, so it is enough to look at each
rule of reading. Lists of tokens need a bound on the bytes in front of the place as well,
since their loop is bounded by it.
-/

namespace TableDump

open Grammar
open InMemory (between)

variable {α β : Type}

/-! ## What a reading comes to -/

namespace Settings

variable {settings : Settings} {bytes : Bytes} {depth middle after limit limit' : Nat}
  {before rest : Bytes}

/-- **A place that reading some bytes has reached**, with `depth` groups around it and no more
than `limit` bytes in front of it. -/
structure Reached (settings : Settings) (bytes : Bytes) (depth limit : Nat)
    (before rest : Bytes) : Prop where
  split : before ++ rest = bytes
  underway : Underway settings.maxDepth depth before rest
  left : rest.length ≤ limit

/-- **What reading on comes to**: a place with `after` groups around it, or a place where it
is stuck, and the fault that says so. -/
inductive Comes (settings : Settings) (bytes : Bytes) (after limit : Nat) :
    Except Fault α × InMemory → Prop where
  | on {value : α} {before rest : Bytes}
      (there : settings.Reached bytes after limit before rest) :
      Comes settings bytes after limit (.ok value, between before rest)
  | stuck {cause : Malformation} {depth : Nat} {before rest : Bytes}
      (split : before ++ rest = bytes) (underway : Underway settings.maxDepth depth before rest)
      (defect : Stuck settings.maxDepth depth cause rest) (names : settings.Names cause rest) :
      Comes settings bytes after limit
        (.error (settings.faultAt cause before rest), between before rest)

/-- **First the one reading, then the other.** -/
theorem Comes.bind {first : Scan α} {next : α → Scan β} {cursor : InMemory}
    (h : settings.Comes bytes middle limit (first.run cursor))
    (hnext : ∀ value before rest, settings.Reached bytes middle limit before rest →
      settings.Comes bytes after limit' ((next value).run (between before rest))) :
    settings.Comes bytes after limit' ((first >>= next).run cursor) := by
  rw [Scan.run_bind]
  generalize first.run cursor = ran at h
  cases h with
  | on there => exact hnext _ _ _ there
  | stuck split underway defect names => exact .stuck split underway defect names

/-- A wider bound on what is left. -/
theorem Comes.mono {ran : Except Fault α × InMemory} (h : settings.Comes bytes after limit ran)
    (le : limit ≤ limit') : settings.Comes bytes after limit' ran := by
  cases h with
  | on there => exact .on { there with left := there.left.trans le }
  | stuck split underway defect names => exact .stuck split underway defect names

/-- Where nothing is read. -/
theorem Reached.comes_pure (here : settings.Reached bytes depth limit before rest) (value : α) :
    settings.Comes bytes depth limit ((pure value : Scan α).run (between before rest)) := by
  rw [Scan.run_pure]
  exact .on here

/-- Where reading is stuck. -/
theorem Reached.comes_malformed (here : settings.Reached bytes depth limit before rest)
    {cause : Malformation} (defect : Stuck settings.maxDepth depth cause rest)
    (other : ∀ found, cause ≠ .unexpectedCharacter found) :
    settings.Comes bytes after limit'
      ((settings.malformed cause : Scan α).run (between before rest)) := by
  rw [settings.run_malformed cause before rest]
  exact .stuck here.split here.underway defect (settings.names_of_ne other)

/-! ## Blanks -/

theorem Reached.comes_skipComment (here : settings.Reached bytes depth limit before rest) :
    settings.Comes bytes depth limit (settings.skipComment.run (between before rest)) := by
  obtain ⟨rfl, underway, left⟩ := here
  rcases skipComment_total rest with
    ⟨found, source, rest, rfl, derived⟩ | ⟨text, rfl, unclosed⟩
  · rw [(settings.recognizes_skipComment before _ found _).2 ⟨source, rest, rfl, derived, rfl⟩]
    refine .on ⟨List.append_assoc before source rest, ?_, ?_⟩
    · rcases derived with ⟨-, comment⟩ | ⟨-, rfl, -, -⟩
      · exact underway.past (.blank (.comment comment))
      · rwa [List.append_nil]
    · exact (List.Sublist.length_le (List.sublist_append_right source rest)).trans left
  · rw [settings.run_skipComment_open unclosed]
    exact .stuck rfl underway (.comment unclosed) (settings.names_of_ne (by simp))

theorem Reached.comes_skipBlanksWithin (here : settings.Reached bytes depth limit before rest)
    (fuel : Nat) :
    settings.Comes bytes depth limit
      ((settings.skipBlanksWithin fuel).run (between before rest)) := by
  induction fuel generalizing before rest with
  | zero => exact here.comes_pure ()
  | succ fuel ih =>
    obtain ⟨rfl, underway, left⟩ := here
    obtain ⟨spaces, more, rfl, isSpace, ends⟩ := exists_run isBlank_iff rest
    have none : Blanks [] more := .nil
    have blanks : Blanks spaces more := by simpa using Blanks.of_spaces isSpace none
    have behind : settings.Reached (before ++ (spaces ++ more)) depth limit (before ++ spaces)
        more :=
      ⟨List.append_assoc before spaces more, underway.blanks blanks,
        (List.Sublist.length_le (List.sublist_append_right spaces more)).trans left⟩
    rw [settings.run_skipBlanksWithin fuel isSpace ends]
    refine behind.comes_skipComment.bind fun found before rest there => ?_
    cases found with
    | true => exact ih there
    | false => exact there.comes_pure ()

theorem Reached.comes_skipBlanks (here : settings.Reached bytes depth limit before rest) :
    settings.Comes bytes depth limit (settings.skipBlanks.run (between before rest)) := by
  unfold skipBlanks
  rw [Scan.run_bind_ok (Scan.run_left _)]
  exact here.comes_skipBlanksWithin _

/-- **Behind all blanks** no further one begins. -/
theorem Reached.comes_behind_blanks (here : settings.Reached bytes depth limit before rest)
    {next : Unit → Scan α}
    (hnext : ∀ before rest, settings.Reached bytes depth limit before rest → Settled rest →
      settings.Comes bytes after limit' ((next ()).run (between before rest))) :
    settings.Comes bytes after limit'
      ((settings.skipBlanks >>= next).run (between before rest)) := by
  have comes := here.comes_skipBlanks
  have recognizes := settings.recognizes_skipBlanks before rest
  rw [Scan.run_bind]
  rcases ran : settings.skipBlanks.run (between before rest) with ⟨outcome, cursor⟩
  rw [ran] at comes
  cases comes with
  | on there =>
    obtain ⟨source, rest, -, ⟨-, settled⟩, same⟩ := (recognizes _ _).1 ran
    obtain ⟨rfl, rfl⟩ := InMemory.between_inj same
    exact hnext _ _ there settled
  | stuck split underway defect names => exact .stuck split underway defect names

/-! ## Tokens -/

/-- Fewer bytes are left behind the next one. -/
theorem Reached.left_le {byte : UInt8}
    (here : settings.Reached bytes depth limit before (byte :: rest)) : rest.length ≤ limit :=
  (Nat.le_succ _).trans here.left

/-- Behind the next byte. -/
theorem Reached.moved {byte : UInt8}
    (here : settings.Reached bytes depth limit before (byte :: rest))
    (part : Part settings.maxDepth depth after [byte] rest) :
    settings.Reached bytes after rest.length (before ++ [byte]) rest :=
  ⟨(List.append_cons before byte rest).symm.trans here.split, here.underway.past part, le_rfl⟩

/-- **A token that is no group** takes a byte at least. -/
theorem Reached.comes_scanSimple {byte : UInt8} {tail : Bytes}
    (here : settings.Reached bytes depth limit before (byte :: tail))
    (settled : Settled (byte :: tail)) (opens_ne : byte ≠ ascii '(')
    (closing_ne : byte ≠ ascii (closing depth)) :
    settings.Comes bytes depth tail.length
      ((settings.scanSimple byte).run (between before (byte :: tail))) := by
  rcases settings.scanSimple_total before (show (byte :: tail).head? = some byte from rfl) with
    ⟨token, source, rest, split, lexeme⟩ | ⟨cause, unreadable, names, failed⟩
  · rw [(settings.recognizes_scanSimple rfl token _).2 ⟨source, rest, split, lexeme, rfl⟩]
    rw [split] at here
    refine .on ⟨(List.append_assoc before source rest).trans here.split,
      here.underway.past (.lexeme lexeme), ?_⟩
    obtain ⟨first, others, rfl, -⟩ := lexeme.exists_leading
    obtain ⟨-, rfl⟩ := List.cons.inj split
    exact List.Sublist.length_le (List.sublist_append_right others rest)
  · rw [failed]
    exact .stuck here.split here.underway (.token settled unreadable opens_ne closing_ne) names

/-- **A group**, if what is inside ends with it. -/
theorem Reached.comes_scanGroup {inside : Scan (List Token)} {tail : Bytes}
    (here : settings.Reached bytes depth limit before (ascii '(' :: tail))
    (h : ∀ before rest, settings.Reached bytes (depth + 1) tail.length before rest →
      Settled rest → settings.Comes bytes depth tail.length (inside.run (between before rest))) :
    settings.Comes bytes depth tail.length
      ((settings.scanGroup depth inside).run (between before (ascii '(' :: tail))) := by
  unfold scanGroup
  split
  case isTrue deep =>
    exact here.comes_malformed (.nesting (Nat.le_antisymm here.underway.depth_le deep)) (by simp)
  case isFalse room =>
    have advanced : (Scan.advance 1).run (between before (ascii '(' :: tail))
        = (.ok (), between (before ++ [ascii '(']) tail) :=
      Scan.run_advance [ascii '('] tail rfl rfl
    have opened := here.moved (.opens (Nat.lt_of_not_le room))
    rw [Scan.run_bind_ok advanced]
    refine opened.comes_behind_blanks fun before rest there settled => ?_
    exact (h before rest there settled).bind fun tokens before rest there => there.comes_pure _

/-- **A list of tokens**, up to what closes it. The bytes behind a token, and those inside of a
group, are fewer. -/
theorem Reached.comes_tokensWithin {fuel : Nat}
    (here : settings.Reached bytes depth limit before rest) (settled : Settled rest)
    (enough : rest.length < fuel) (found : List Token) :
    settings.Comes bytes (depth - 1) limit
      ((settings.tokensWithin fuel depth found).run (between before rest)) := by
  induction fuel generalizing before rest depth limit found with
  | zero => exact absurd enough (Nat.not_lt_zero _)
  | succ fuel ih =>
    unfold tokensWithin
    rw [Scan.run_bind_ok (Scan.run_peek 0)]
    rcases rest with _ | ⟨byte, tail⟩
    · dsimp only [List.getElem?_nil]
      split
      case isTrue outermost =>
        subst outermost
        exact here.comes_pure _
      case isFalse inside =>
        exact here.comes_malformed (.missing (Nat.pos_of_ne_zero inside)) (by simp)
    · dsimp only [List.getElem?_cons_zero]
      split
      case isTrue ends =>
        obtain rfl : byte = ascii (closing depth) := by simpa using ends
        have advanced : (Scan.advance 1).run (between before (ascii (closing depth) :: tail))
            = (.ok (), between (before ++ [ascii (closing depth)]) tail) :=
          Scan.run_advance [ascii (closing depth)] tail rfl rfl
        rw [Scan.run_bind_ok advanced]
        exact ((here.moved .closes).comes_pure _).mono here.left_le
      case isFalse goes =>
        have shorter : tail.length < fuel := Nat.lt_of_succ_lt_succ enough
        have others : ∀ token before rest,
            settings.Reached bytes depth tail.length before rest →
            settings.Comes bytes (depth - 1) limit
              ((settings.skipBlanks >>= fun _ =>
                settings.tokensWithin fuel depth (token :: found)).run (between before rest)) := by
          intro token before rest there
          refine there.comes_behind_blanks fun before rest there settled => ?_
          exact (ih there settled (there.left.trans_lt shorter) (token :: found)).mono here.left_le
        split
        case isTrue opens =>
          obtain rfl : byte = ascii '(' := by simpa using opens
          refine (here.comes_scanGroup fun before rest there settled => ?_).bind others
          exact ih there settled (there.left.trans_lt shorter) []
        case isFalse simple =>
          exact (here.comes_scanSimple settled (by simpa using simple)
            (by simpa using goes)).bind others

/-! ## Statements -/

/-- **A statement**, or what is behind the last one. -/
theorem Reached.comes_scanStatement (here : settings.Reached bytes 0 limit before rest) :
    settings.Comes bytes 0 limit (settings.scanStatement.run (between before rest)) := by
  unfold scanStatement
  refine here.comes_behind_blanks fun before rest there settled => ?_
  rw [Scan.run_bind_ok Scan.run_atEnd]
  split
  case isTrue => exact there.comes_pure none
  case isFalse =>
    rw [Scan.run_bind_ok (Scan.run_left _), InMemory.left_between]
    exact (there.comes_tokensWithin settled (Nat.lt_succ_self _) []).bind
      fun tokens before rest there => there.comes_pure _

end Settings

/-! ## What faults say -/

/-- **A fault that points at what is wrong with some bytes**: at a place that reading them comes to
and cannot go on from, for the cause that it names, and it quotes what stands there. -/
structure Settings.Points (settings : Settings) (bytes : Bytes) (fault : Fault) (place : Nat) :
    Prop where
  inside : place ≤ bytes.length
  defect : ∃ cause depth,
    fault = .malformed cause
        { offset := place, excerpt := Utf8.decode ((bytes.drop place).take settings.excerptLength) }
      ∧ Underway settings.maxDepth depth (bytes.take place) (bytes.drop place)
      ∧ Stuck settings.maxDepth depth cause (bytes.drop place)
      ∧ settings.Names cause (bytes.drop place)

/-- What a reading is stuck at, its fault points at. -/
theorem Settings.Comes.points {settings : Settings} {bytes : Bytes} {after limit : Nat}
    {fault : Fault} {cursor : InMemory}
    (h : settings.Comes bytes after limit ((.error fault, cursor) : Except Fault α × InMemory)) :
    settings.Points bytes fault cursor.position := by
  generalize failed : ((.error fault, cursor) : Except Fault α × InMemory) = ran at h
  cases h with
  | on => cases failed
  | @stuck cause depth before rest split underway defect names =>
    obtain ⟨same, rfl⟩ := Prod.mk.inj failed
    obtain rfl := Except.error.inj same
    subst split
    refine ⟨by simp [between], cause, depth, ?_⟩
    rw [show (between before rest).position = before.length from rfl, List.take_left,
      List.drop_left]
    exact ⟨rfl, underway, defect, names⟩

namespace Reader

/-- **All faults of a reading point at what is wrong**, and the reader is there when it meets
them. -/
structure Precise {κ : Type} [Cursor κ] (bytes : Bytes) (start : Reader κ) : Prop where
  /-- A call for a statement may fail, -/
  calls : ∀ {count : Nat} {fault : Fault} {place : Nat},
    (.error fault, place) ∈ start.transcript count → start.settings.Points bytes fault place
  /-- and so may handing over statements, where it is no refusal. -/
  drives : ∀ {σ ε : Type} (handle : Statement → σ → Except (Fault ⊕ ε) Unit × σ) (state : σ)
    {fault : Fault} {reader : Reader κ} {state' : σ},
    (∀ statement state fault, (handle statement state).1 ≠ .error (.inl fault)) →
    start.drive handle .inl state = (.error (.inl fault), reader, state') →
    start.settings.Points bytes fault reader.position

section

variable {κ σ ε : Type} [Cursor κ]

/-- **Where handing over statements meets a fault, a call for a statement does.** -/
theorem exists_call_of_driveWithin {handle : Statement → σ → Except (Fault ⊕ ε) Unit × σ}
    (own : ∀ statement state fault, (handle statement state).1 ≠ .error (.inl fault))
    {fuel count : Nat} {reader reader' : Reader κ} {state state' : σ} {fault : Fault}
    (h : driveWithin handle .inl fuel count reader state = (.error (.inl fault), reader', state')) :
    ∃ calls, (.error fault, reader'.position) ∈ reader.transcript calls := by
  induction fuel generalizing count reader state with
  | zero => cases h
  | succ fuel ih =>
    rw [driveWithin] at h
    rcases here : reader.next with ⟨found | _ | statement, mid⟩
    · rw [here] at h
      cases h
      exact ⟨1, by rw [transcript, here]; exact List.mem_cons_self⟩
    · rw [here] at h
      cases h
    · rw [here] at h
      dsimp only at h
      rcases answered : handle statement state with ⟨refusal | _, later⟩
      · rw [answered] at h
        cases h
        exact absurd (congrArg Prod.fst answered) (own statement state fault)
      · rw [answered] at h
        obtain ⟨calls, mem⟩ := ih h
        exact ⟨calls + 1, by rw [transcript, here]; exact List.mem_cons_of_mem _ mem⟩

/-- So it is enough to look at the calls. -/
theorem precise_of_calls {bytes : Bytes} {start : Reader κ}
    (calls : ∀ {count : Nat} {fault : Fault} {place : Nat},
      (.error fault, place) ∈ start.transcript count → start.settings.Points bytes fault place) :
    start.Precise bytes where
  calls := calls
  drives handle state := by
    intro fault reader state' own h
    obtain ⟨count, mem⟩ := exists_call_of_driveWithin own h
    exact calls mem

end

/-- **Where a call of a transcript is made.** A call that hands out a statement, or meets a fault,
reads at a place between statements. -/
theorem exists_run_of_mem_transcript {settings : Settings} {bytes before rest : Bytes}
    {limit counted count : Nat} (here : settings.Reached bytes 0 limit before rest)
    {outcome : Except Fault (Option Statement)} {place : Nat} (something : outcome ≠ .ok none)
    (mem : (outcome, place)
      ∈ transcript count { cursor := between before rest, settings, statements := counted }) :
    ∃ before rest cursor, settings.Reached bytes 0 limit before rest
      ∧ settings.scanStatement.run (between before rest) = (outcome, cursor)
      ∧ place = cursor.position := by
  induction count generalizing before rest counted with
  | zero => cases mem
  | succ count ih =>
    have comes := here.comes_scanStatement
    -- nothing is behind the last call
    have finished : ∀ {cursor : InMemory}, (outcome, place)
        ∉ transcript count { cursor, settings, statements := counted, finished := true } := by
      intro cursor mem
      rw [transcript_of_finished rfl] at mem
      exact something (Prod.mk.inj (List.eq_of_mem_replicate mem)).1
    rw [transcript, next] at mem
    dsimp only [Bool.false_eq_true, if_false] at mem
    rcases ran : settings.scanStatement.run (between before rest) with
      ⟨fault | _ | statement, cursor⟩
    · rw [ran] at mem
      rcases List.mem_cons.1 mem with first | later
      · cases first
        exact ⟨before, rest, cursor, here, ran, rfl⟩
      · exact absurd later finished
    · rw [ran] at mem
      rcases List.mem_cons.1 mem with first | later
      · exact absurd (Prod.mk.inj first).1 something
      · exact absurd later finished
    · rw [ran] at mem comes
      rcases List.mem_cons.1 mem with first | later
      · cases first
        exact ⟨before, rest, cursor, here, ran, rfl⟩
      · cases comes with
        | on there => exact ih there later

/-- **The faults of a reading in memory.** What comes before one of them are statements, so it
starts where it does, outside all groups. -/
theorem points_of_mem_transcript {settings : Settings} {bytes before rest : Bytes}
    {limit counted count : Nat} (here : settings.Reached bytes 0 limit before rest)
    {fault : Fault} {place : Nat}
    (mem : (.error fault, place)
      ∈ transcript count { cursor := between before rest, settings, statements := counted }) :
    settings.Points bytes fault place := by
  obtain ⟨_, _, cursor, there, ran, rfl⟩ := exists_run_of_mem_transcript here (by simp) mem
  have comes := there.comes_scanStatement
  rw [ran] at comes
  exact comes.points

/-- **A fault points at what is wrong.** Whether bytes are read in memory or from a source that
does not fail, and whether statements are asked for or handed over: a fault that a call meets is
about the input, and the place that it names is where the reader then stands. What comes before
that place could be read, and what the fault names is what stands there. -/
theorem precise_ofBytes_ofSource (bytes : Array UInt8) (settings : Settings) :
    Precise bytes.toList (ofBytes bytes settings)
      ∧ ∀ script : List Reply, KeepsGiving bytes.size script →
        (∀ error, Reply.fail error ∈ script → error.kind = .interrupted) →
        Precise bytes.toList (ofSource { bytes, script } settings) := by
  have inMemory : ∀ {count : Nat} {fault : Fault} {place : Nat},
      (.error fault, place) ∈ (ofBytes bytes settings).transcript count →
      settings.Points bytes.toList fault place := by
    intro count fault place mem
    have start : settings.Reached bytes.toList 0 bytes.toList.length [] bytes.toList :=
      ⟨rfl, .nil, le_rfl⟩
    exact points_of_mem_transcript start mem
  refine ⟨precise_of_calls inMemory, fun script honest reliable => precise_of_calls ?_⟩
  intro count fault place mem
  rw [Streaming.lockstep.transcript (alike_ofSource honest reliable settings) count] at mem
  exact inMemory mem

/-- A text that is not closed, in a group, and a source that is interrupted in the middle of it. One
byte is quoted. -/
theorem precise_ofBytes_ofSource_unclosed :
    let bytes := bytesOf "a ('b"
    let reader :=
      ofSource { bytes, script := [.give 4, .fail .interruption] } { excerptLength := 1 }
    reader.transcript 1
        = [(.error (.malformed (.unterminatedString '\x27') { offset := 3, excerpt := "'" }), 3)]
      ∧ KeepsGiving bytes.size [.give 4, .fail .interruption]
      ∧ (∀ error, Reply.fail error ∈ [.give 4, .fail .interruption] → error.kind = .interrupted)
      ∧ Precise bytes.toList reader := by
  intro bytes reader
  have honest : KeepsGiving bytes.size [.give 4, .fail .interruption] := by
    simp [KeepsGiving, bytes]
  have reliable : ∀ error, Reply.fail error ∈ [.give 4, .fail .interruption] →
      error.kind = .interrupted := by
    simp
  exact ⟨by decide +kernel, honest, reliable,
    (precise_ofBytes_ofSource bytes _).2 _ honest reliable⟩

end Reader

end TableDump
