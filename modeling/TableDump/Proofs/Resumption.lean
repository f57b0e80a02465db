import Mathlib
import TableDump.Proofs.Boundaries
import TableDump.Proofs.Endings

/-!
# Reading goes on behind a refusal

A reader can be asked for one statement, or be told to hand over all that there are to somebody
who may refuse one. There are two ways in which this stops early, and they could not be more
different. A refusal is the affair of whoever refuses: it is passed on as it is, and the reader
stands behind the refused statement, which it will not hand out again (`Reader.Drives`). A fault
is the end of the reader. There is nothing more behind it, and the reader does not even look
(`Reader.Silent`).

So however one mixes the ways of asking, and whatever is refused, the statements that come out are
the first ones of the course of the reading, each of them once (`Reader.Walk.OnCourse`). What one
request does to a reader is a number of statements that are handed out one after the other
(`Reader.Passes`), and perhaps the call that finds no more of them.
-/

namespace TableDump

namespace Reader

variable {κ σ ε : Type} [Cursor κ] {reader reader' mid : Reader κ}
  {statements rest : List Statement} {passed : List (Statement × Nat)}
  {ending : Except Fault Unit}

/-! ## Passing over statements -/

namespace Passes

/-- **Statements that are passed over are the first ones of the course**, and the course goes on
behind them. -/
theorem exists_rest (h : Passes reader passed reader') (course : reader.Course statements ending) :
    ∃ rest, statements = passed.map Prod.fst ++ rest ∧ reader'.Course rest ending := by
  induction h generalizing statements with
  | nothing => exact ⟨statements, rfl, course⟩
  | next here there further ih =>
    cases course with
    | ended here' | failed here' =>
      rw [here] at here'
      cases here'
    | read here' further' =>
      rw [here] at here'
      cases here'
      obtain ⟨rest, rfl, course⟩ := ih further'
      exact ⟨rest, rfl, course⟩

/-- A reader that stands in the input does so behind them. -/
theorem poised {bytes : Array UInt8} {stands : (place reach : Nat) → κ → Prop}
    {settings : Settings} (h : Passes reader passed reader') (footing : Footing bytes stands)
    (poised : reader.Poised stands settings) : reader'.Poised stands settings := by
  induction h with
  | nothing => exact poised
  | next here there further ih => exact ih (poised.next footing here).1

end Passes

/-- Handing out a statement does not finish a reader. -/
theorem finished_of_statement {statement : Statement}
    (here : reader.next = (.ok (some statement), reader')) : reader'.finished = false := by
  unfold next at here
  split at here
  case isTrue => cases (Prod.mk.inj here).1
  case isFalse open? =>
    split at here
    · obtain ⟨-, rfl⟩ := Prod.mk.inj here
      exact Bool.eq_false_of_not_eq_true open?
    · rename_i other _
      obtain ⟨rfl, -⟩ := Prod.mk.inj here
      exact absurd rfl (other statement)

/-! ## Handing over statements -/

/-- **What comes of handing over statements** to `handle`, and which statements these are. -/
inductive Drives (handle : Statement → σ → Except ε Unit × σ) (ofFault : Fault → ε) :
    (reader : Reader κ) → (state : σ) → (passed : List (Statement × Nat)) →
      Except ε Nat × Reader κ × σ → Prop where
  /-- The last of them is refused. The reader can go on behind it. -/
  | refused {reader reader' : Reader κ} {state mid state' : σ} {refusal : ε}
      (front : List (Statement × Nat)) (last : Statement × Nat)
      (passes : Passes reader (front ++ [last]) reader')
      (taken : handOver handle (front.map Prod.fst) state = (.ok (), mid))
      (refused : handle last.1 mid = (.error refusal, state'))
      (unfinished : reader'.finished = false) :
      Drives handle ofFault reader state (front ++ [last]) (.error refusal, reader', state')
  /-- There are no more. -/
  | ended {reader mid reader' : Reader κ} {state state' : σ} {passed : List (Statement × Nat)}
      (passes : Passes reader passed mid)
      (taken : handOver handle (passed.map Prod.fst) state = (.ok (), state'))
      (ends : mid.next = (.ok none, reader')) (finished : reader'.finished = true) :
      Drives handle ofFault reader state passed (.ok passed.length, reader', state')
  /-- The next one cannot be read. -/
  | failed {reader mid reader' : Reader κ} {state state' : σ} {passed : List (Statement × Nat)}
      {fault : Fault} (passes : Passes reader passed mid)
      (taken : handOver handle (passed.map Prod.fst) state = (.ok (), state'))
      (fails : mid.next = (.error fault, reader')) (finished : reader'.finished = true) :
      Drives handle ofFault reader state passed (.error (ofFault fault), reader', state')

/-- **Takes note of the statements** that are handed over to `handle`. -/
def noting (handle : Statement → σ → Except ε Unit × σ) (statement : Statement) :
    σ × List Statement → Except ε Unit × σ × List Statement
  | (state, handed) =>
    let (outcome, state) := handle statement state
    (outcome, state, handed ++ [statement])

variable {handle : Statement → σ → Except ε Unit × σ} {ofFault : Fault → ε}

/-- A statement that is accepted comes first. -/
theorem Drives.cons {statement : Statement} {state state₁ state' : σ} {outcome : Except ε Nat}
    (here : reader.next = (.ok (some statement), mid))
    (accepted : handle statement state = (.ok (), state₁))
    (further : Drives handle ofFault mid state₁ passed (outcome, reader', state')) :
    Drives handle ofFault reader state ((statement, mid.position) :: passed)
      (outcome.map (· + 1), reader', state') := by
  have hand : ∀ others, handOver handle (statement :: others) state
      = handOver handle others state₁ := by
    intro others
    rw [handOver, accepted]
  cases further with
  | refused front last passes taken refused unfinished =>
    exact .refused ((statement, mid.position) :: front) last (.next here rfl passes)
      ((hand _).trans taken) refused unfinished
  | ended passes taken ends finished =>
    exact .ended (.next here rfl passes) ((hand _).trans taken) ends finished
  | failed passes taken fails finished =>
    exact .failed (.next here rfl passes) ((hand _).trans taken) fails finished

/-- **A reader hands over what its course has first**, if it is given fuel for all of it. -/
theorem Course.exists_drives (course : reader.Course statements ending) {fuel : Nat}
    (enough : statements.length < fuel) (handle : Statement → σ → Except ε Unit × σ)
    (ofFault : Fault → ε) (count : Nat) (state : σ) :
    ∃ passed outcome reader' state',
      Drives handle ofFault reader state passed (outcome, reader', state')
        ∧ driveWithin handle ofFault fuel count reader state
          = (outcome.map (· + count), reader', state')
        ∧ ∀ handed, driveWithin (noting handle) ofFault fuel count reader (state, handed)
          = (outcome.map (· + count), reader', state', handed ++ passed.map Prod.fst) := by
  induction course generalizing fuel count state with
  | @ended reader reader' here =>
    obtain ⟨fuel, rfl⟩ := Nat.exists_eq_add_one.2 (Nat.zero_lt_of_lt enough)
    refine ⟨[], .ok 0, reader', state,
      .ended .nothing rfl here (finished_of_next here (by simp)), ?_, fun handed => ?_⟩
    · rw [driveWithin, here]
      exact congrArg (fun total => (Except.ok total, reader', state)) (Nat.zero_add count).symm
    · rw [driveWithin, here, List.map_nil, List.append_nil]
      exact congrArg (fun total => (Except.ok total, reader', state, handed))
        (Nat.zero_add count).symm
  | @failed reader reader' fault here =>
    obtain ⟨fuel, rfl⟩ := Nat.exists_eq_add_one.2 (Nat.zero_lt_of_lt enough)
    refine ⟨[], .error (ofFault fault), reader', state,
      .failed .nothing rfl here (finished_of_next here (by simp)), ?_, fun handed => ?_⟩
    · rw [driveWithin, here]
      rfl
    · rw [driveWithin, here, List.map_nil, List.append_nil]
      rfl
  | @read reader mid statement statements ending here further ih =>
    obtain ⟨fuel, rfl⟩ := Nat.exists_eq_add_one.2 (Nat.zero_lt_of_lt enough)
    rw [driveWithin, here]
    rcases answered : handle statement state with ⟨refusal | _, later⟩
    · refine ⟨[(statement, mid.position)], .error refusal, mid, later, ?_, ?_, fun handed => ?_⟩
      · exact .refused [] (statement, mid.position) (.next here rfl .nothing) rfl answered
          (finished_of_statement here)
      · dsimp only
        rw [answered]
        rfl
      · rw [driveWithin, here]
        dsimp only [noting]
        rw [answered]
        rfl
    · obtain ⟨passed, outcome, reader', state', drives, driven, noted⟩ :=
        ih (Nat.lt_of_succ_lt_succ enough) (count + 1) later
      have total : (outcome.map (· + 1)).map (· + count) = outcome.map (· + (count + 1)) := by
        cases outcome with
        | error => rfl
        | ok more => exact congrArg Except.ok (Nat.add_right_comm more 1 count)
      refine ⟨_, _, reader', state', drives.cons here answered, ?_, fun handed => ?_⟩
      · rw [total, ← driven]
        dsimp only
        rw [answered]
      · rw [total, List.map_cons, ← List.singleton_append, ← List.append_assoc,
          ← noted (handed ++ [statement]), driveWithin, here]
        dsimp only [noting]
        rw [answered]

/-! ## Any way of asking -/

/-- **What one may ask of a reader.** -/
inductive Request (σ ε : Type) where
  /-- The next statement. -/
  | next
  /-- The next statement, as an item of a list. -/
  | item
  /-- All further statements, handed over one by one. -/
  | drive (handle : Statement → σ → Except ε Unit × σ) (ofFault : Fault → ε)

/-- A reader, the state of those to whom it hands over statements, and the statements that it has
given so far. -/
structure Walk (κ σ : Type) where
  reader : Reader κ
  state : σ
  handed : List Statement := []

/-- **One request.** -/
def Walk.request (walk : Walk κ σ) : Request σ ε → Walk κ σ
  | .next =>
    let (found, reader) := walk.reader.next
    let given := match found with
      | .ok (some statement) => [statement]
      | _ => []
    { walk with reader, handed := walk.handed ++ given }
  | .item =>
    let (item, reader) := walk.reader.item?
    let given := match item with
      | some (.ok statement) => [statement]
      | _ => []
    { walk with reader, handed := walk.handed ++ given }
  | .drive handle ofFault =>
    let (_, reader, state, handed) :=
      walk.reader.drive (noting handle) ofFault (walk.state, walk.handed)
    { reader, state, handed }

/-- **A reader that is finished does nothing**: it reports the end, hands over nothing, and stays
as it is, and so does its cursor. -/
structure Silent (reader : Reader κ) : Prop where
  next_eq : reader.next = (.ok none, reader)
  item?_eq : reader.item? = (none, reader)
  drive_eq : ∀ {σ ε : Type} (handle : Statement → σ → Except ε Unit × σ) (ofFault : Fault → ε)
    (state : σ), reader.drive handle ofFault state = (.ok 0, reader, state)

theorem silent_of_finished (finished : reader.finished = true) : reader.Silent := by
  have here : reader.next = (.ok none, reader) := by rw [next, if_pos finished]
  refine ⟨here, ?_, fun handle ofFault state => ?_⟩
  · rw [item?, here]
  · rw [drive, driveWithin, here]

namespace Walk

variable {walk : Walk κ σ}

/-- **The statements that were given are the first ones of the course**, and the reader has not
got further than that. It is finished only behind all of them. -/
structure OnCourse (statements : List Statement) (ending : Except Fault Unit) (walk : Walk κ σ) :
    Prop where
  /-- Each statement comes once and in its turn. -/
  rest : ∃ rest, statements = walk.handed ++ rest
    ∧ if walk.reader.finished then rest = [] else walk.reader.Course rest ending
  /-- What hands out no statement is the end of the reader. -/
  finished_of_next : (∀ statement, walk.reader.next.1 ≠ .ok (some statement)) →
    walk.reader.next.2.finished = true
  silent : walk.reader.finished = true → walk.reader.Silent
  /-- Handing over statements comes to one of three ends. -/
  drives : ∀ {ε : Type} (handle : Statement → σ → Except ε Unit × σ) (ofFault : Fault → ε),
    ∃ passed, Drives handle ofFault walk.reader walk.state passed
        (walk.reader.drive handle ofFault walk.state)
      ∧ walk.request (.drive handle ofFault)
        = { reader := (walk.reader.drive handle ofFault walk.state).2.1
            state := (walk.reader.drive handle ofFault walk.state).2.2
            handed := walk.handed ++ passed.map Prod.fst }

/-- **A walk that can go on**: its reader stands in the input in front of the rest of the course,
or it is finished behind the whole of it. -/
structure Ready (stands : (place reach : Nat) → κ → Prop) (settings : Settings)
    (statements : List Statement) (ending : Except Fault Unit) (walk : Walk κ σ) : Prop where
  unfinished : walk.reader.finished = false → walk.reader.Poised stands settings
    ∧ ∃ rest, statements = walk.handed ++ rest ∧ walk.reader.Course rest ending
  finished : walk.reader.finished = true → statements = walk.handed

namespace Ready

variable {bytes : Array UInt8} {stands : (place reach : Nat) → κ → Prop} {settings : Settings}

/-- There is fuel for all that is handed over. -/
theorem exists_course (h : Ready stands settings statements ending walk)
    (footing : Footing bytes stands) (again : ShowsAgain κ) :
    ∃ rest ending, walk.reader.Course rest ending
      ∧ rest.length < Cursor.left walk.reader.cursor + 1 := by
  cases finished : walk.reader.finished with
  | true => exact ⟨[], .ok (), .ended (silent_of_finished finished).next_eq, Nat.succ_pos _⟩
  | false =>
    obtain ⟨rest, ending, course, bound⟩ :=
      (h.unfinished finished).1.exists_course footing again
    exact ⟨rest, ending, course, Nat.lt_succ_of_le bound⟩

/-- **Handing over statements** comes to one of three ends, and it does not matter whether note is
taken of them. -/
theorem exists_drives (h : Ready stands settings statements ending walk)
    (footing : Footing bytes stands) (again : ShowsAgain κ)
    (handle : Statement → σ → Except ε Unit × σ) (ofFault : Fault → ε) :
    ∃ passed outcome reader state,
      Drives handle ofFault walk.reader walk.state passed (outcome, reader, state)
        ∧ walk.reader.drive handle ofFault walk.state = (outcome, reader, state)
        ∧ walk.request (.drive handle ofFault)
          = { reader, state, handed := walk.handed ++ passed.map Prod.fst } := by
  obtain ⟨rest, ending, course, enough⟩ := h.exists_course footing again
  obtain ⟨passed, outcome, reader, state, drives, driven, noted⟩ :=
    course.exists_drives enough handle ofFault 0 walk.state
  have outcome_eq : outcome.map (· + 0) = outcome := by cases outcome <;> rfl
  rw [outcome_eq] at driven
  refine ⟨passed, outcome, reader, state, drives, driven, ?_⟩
  rw [request, drive, noted]

/-- So the walk is on its course. -/
theorem onCourse (h : Ready stands settings statements ending walk)
    (footing : Footing bytes stands) (again : ShowsAgain κ) :
    OnCourse statements ending walk where
  rest := by
    cases finished : walk.reader.finished with
    | true => exact ⟨[], (h.finished finished).trans (List.append_nil _).symm, rfl⟩
    | false =>
      obtain ⟨-, rest, split, course⟩ := h.unfinished finished
      exact ⟨rest, split, course⟩
  finished_of_next none := finished_of_next (Prod.ext rfl rfl) none
  silent := silent_of_finished
  drives handle ofFault := by
    obtain ⟨passed, outcome, reader, state, drives, driven, noted⟩ :=
      h.exists_drives footing again handle ofFault
    rw [driven]
    exact ⟨passed, drives, noted⟩

/-- A reader that is finished stays so. -/
theorem request_of_finished (finished : walk.reader.finished = true) (request : Request σ ε) :
    walk.request request = walk := by
  obtain ⟨next_eq, item?_eq, drive_eq⟩ := silent_of_finished finished
  cases request with
  | next =>
    rw [Walk.request, next_eq]
    dsimp only
    rw [List.append_nil]
  | item =>
    rw [Walk.request, item?_eq]
    dsimp only
    rw [List.append_nil]
  | drive handle ofFault => rw [Walk.request, drive_eq]

/-- Behind statements that were passed over, the walk can go on with the rest of the course. -/
theorem of_passes (h : Ready stands settings statements ending walk)
    (footing : Footing bytes stands) (open? : walk.reader.finished = false)
    (passes : Passes walk.reader passed mid) :
    mid.Poised stands settings ∧ ∃ rest,
      statements = walk.handed ++ passed.map Prod.fst ++ rest ∧ mid.Course rest ending := by
  obtain ⟨poised, rest, rfl, course⟩ := h.unfinished open?
  obtain ⟨others, rfl, behind⟩ := passes.exists_rest course
  exact ⟨passes.poised footing poised, others, (List.append_assoc _ _ _).symm, behind⟩

/-- So it is if no more is done. -/
theorem behind (h : Ready stands settings statements ending walk) (footing : Footing bytes stands)
    (open? : walk.reader.finished = false) (passes : Passes walk.reader passed reader')
    (unfinished : reader'.finished = false) (state : σ) :
    Ready stands settings statements ending
      { reader := reader', state, handed := walk.handed ++ passed.map Prod.fst } where
  unfinished _ := h.of_passes footing open? passes
  finished finished := absurd finished (by rw [unfinished]; exact Bool.false_ne_true)

/-- And if the next call finds no statement, that is all of the course. -/
theorem behind_end (h : Ready stands settings statements ending walk)
    (footing : Footing bytes stands) (open? : walk.reader.finished = false)
    (passes : Passes walk.reader passed mid) {found : Except Fault (Option Statement)}
    (here : mid.next = (found, reader')) (none : ∀ statement, found ≠ .ok (some statement))
    (state : σ) :
    Ready stands settings statements ending
      { reader := reader', state, handed := walk.handed ++ passed.map Prod.fst } where
  unfinished unfinished := by
    have finished := finished_of_next here none
    exact absurd (unfinished.symm.trans finished) Bool.false_ne_true
  finished _ := by
    obtain ⟨-, rest, split, course⟩ := h.of_passes footing open? passes
    cases course with
    | ended | failed => exact split.trans (List.append_nil _)
    | @read _ _ statement _ _ here' =>
      rw [here] at here'
      exact absurd (Prod.mk.inj here').1 (none statement)

/-- **Any request leaves a walk ready.** -/
theorem request (h : Ready stands settings statements ending walk)
    (footing : Footing bytes stands) (again : ShowsAgain κ) (request : Request σ ε) :
    Ready stands settings statements ending (walk.request request) := by
  cases finished : walk.reader.finished with
  | true => rwa [request_of_finished finished]
  | false =>
    cases request with
    | next =>
      rw [Walk.request]
      rcases here : walk.reader.next with ⟨fault | _ | statement, reader⟩
      · exact h.behind_end footing finished .nothing here nofun walk.state
      · exact h.behind_end footing finished .nothing here nofun walk.state
      · exact h.behind footing finished (.next here rfl .nothing) (finished_of_statement here)
          walk.state
    | item =>
      rw [Walk.request, item?]
      rcases here : walk.reader.next with ⟨fault | _ | statement, reader⟩
      · exact h.behind_end footing finished .nothing here nofun walk.state
      · exact h.behind_end footing finished .nothing here nofun walk.state
      · exact h.behind footing finished (.next here rfl .nothing) (finished_of_statement here)
          walk.state
    | drive handle ofFault =>
      obtain ⟨passed, outcome, reader, state, drives, -, noted⟩ :=
        h.exists_drives footing again handle ofFault
      rw [noted]
      cases drives with
      | refused front last passes _ _ unfinished =>
        exact h.behind footing finished passes unfinished state
      | ended passes _ ends => exact h.behind_end footing finished passes ends nofun state
      | failed passes _ fails => exact h.behind_end footing finished passes fails nofun state

/-- Any number of them does. -/
theorem requests (h : Ready stands settings statements ending walk)
    (footing : Footing bytes stands) (again : ShowsAgain κ) (requests : List (Request σ ε)) :
    Ready stands settings statements ending (requests.foldl Walk.request walk) := by
  induction requests generalizing walk with
  | nil => exact h
  | cons request requests ih => exact ih (h.request footing again request)

end Ready

end Walk

/-- **A reader that can be resumed**: it has a course, and stays on it whatever it is asked. -/
def Resumable (start : Reader κ) : Prop :=
  ∃ statements ending, start.Course statements ending
    ∧ ∀ {σ ε : Type} (state : σ) (requests : List (Request σ ε)),
      (requests.foldl Walk.request { reader := start, state }).OnCourse statements ending

/-- A reader that stands in the input can be resumed. -/
theorem Poised.resumable {bytes : Array UInt8} {stands : (place reach : Nat) → κ → Prop}
    {settings : Settings} (poised : reader.Poised stands settings)
    (footing : Footing bytes stands) (again : ShowsAgain κ)
    (unfinished : reader.finished = false) : reader.Resumable := by
  obtain ⟨statements, ending, course, -⟩ := poised.exists_course footing again
  refine ⟨statements, ending, course, fun state requests => ?_⟩
  have ready : Walk.Ready stands settings statements ending { reader, state } :=
    { unfinished := fun _ => ⟨poised, statements, rfl, course⟩
      finished := fun finished => absurd (unfinished.symm.trans finished) Bool.false_ne_true }
  exact (ready.requests footing again requests).onCourse footing again

/-- **Reading can be resumed behind a refusal, and not behind a fault.** Take any reader, of bytes in
memory or of a source that may fail at any time, and make any requests of it, with statements that
are refused where one likes. Then all statements that came out, in their order, are the first ones
of the course of the reading, and each came once. A refusal is passed on as it is, and leaves the
reader behind the refused statement; handing over without a refusal or a fault gives the number of
statements that were handed over. Behind the end of the course, be it a fault or not, nothing
happens any more. -/
theorem resumable_of_any :
    (∀ (memory : InMemory) (settings : Settings), memory.position ≤ memory.bytes.size →
        Resumable { cursor := memory, settings })
      ∧ ∀ (bytes : Array UInt8) (script : List Reply) (settings : Settings),
        Resumable (ofSource { bytes, script } settings) := by
  constructor
  · intro memory settings inside
    have poised : Poised (InMemory.Stands memory.bytes) settings { cursor := memory, settings } :=
      ⟨⟨memory.position, ⟨rfl, rfl, inside⟩⟩, rfl⟩
    exact poised.resumable (InMemory.footing _) InMemory.showsAgain rfl
  · intro bytes script settings
    exact (poised_ofSource bytes script settings).resumable (Streaming.footing bytes _)
      Streaming.showsAgain rfl

/-- The first statement is refused. The second one comes when it is asked for, and behind it there
is a fault, and then nothing. -/
theorem resumable_of_any_refusal :
    let reader := ofBytes (bytesOf ";;(")
    let refuse : Statement → Nat → Except String Unit × Nat :=
      fun _ count => if count = 0 then (.error "no", 1) else (.ok (), count + 1)
    let first := reader.drive refuse (fun _ => "fault") 0
    let second := first.2.1.drive refuse (fun _ => "fault") first.2.2
    let third := second.2.1.drive refuse (fun _ => "fault") second.2.2
    (first.1 = .error "no" ∧ first.2.1.position = 1 ∧ first.2.2 = 1)
      ∧ (second.1 = .error "fault" ∧ second.2.1.position = 3 ∧ second.2.2 = 2)
      ∧ (third.1 = .ok 0 ∧ third.2.1.position = 3 ∧ third.2.2 = 2) ∧ reader.Resumable := by
  intro reader refuse first second third
  exact ⟨by decide +kernel, by decide +kernel, by decide +kernel,
    resumable_of_any.1 _ _ (Nat.zero_le _)⟩

end Reader

end TableDump
