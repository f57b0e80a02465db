import Mathlib
import TableDump.Proofs.Footing
import TableDump.Proofs.Ranges
import TableDump.Statement.Reader

/-!
# No reader breaks the contract of its cursor

A cursor answers a question about a range only if the range is there: it is in order, it
does not pass the end of the input, and nothing of it has been released. A careful
reading (`Scan.Careful`) asks for no other range, on any cursor that keeps what it knows
(`Ground`): what has been seen in front of it stays there until it is passed.

In memory that is plain. Over a source a byte that has been seen is held, and what is
held in front of the cursor is not released. So a range that is asked for is held already,
the source is not even asked for it, and where the source fails, or says too early that it
has ended, this is noticed in looking and searching only.
-/

namespace TableDump

variable {α κ : Type}

/-! ## What a reading asks on its way -/

/-- **The questions of a reading** in the order in which it asks them, each with the
cursor that it is put to. -/
def Scan.asked [Cursor κ] : Scan α → κ → List (Query × κ)
  | done _, _ => []
  | fail _, _ => []
  | locate next, cursor => (next (Cursor.position cursor) (Cursor.left cursor)).asked cursor
  | ask query next, cursor =>
    (query, cursor) :: match Cursor.answer query cursor with
      | (.error _, _) => []
      | (.ok answer, cursor) => (next answer).asked cursor

/-- **How a safe question can end**: it fails in one of the ways in which it may fail, or the
answer leaves what it is said to leave. -/
inductive Query.Ends (has : (known : Nat) → κ → Prop) (fails : Fault → Prop) (known : Nat)
    (query : Query) : Except Fault query.Answer → κ → Prop
  | failed {fault : Fault} {cursor : κ} : fails fault →
      Ends has fails known query (.error fault) cursor
  | answered {answer : query.Answer} {known' : Nat} {cursor : κ} :
      query.Leaves known answer known' → has known' cursor →
      Ends has fails known query (.ok answer) cursor

/-- **Cursors that keep what is known of them.** `has known` says of a cursor that the next
`known` bytes are there. -/
structure Ground [Cursor κ] (has : (known : Nat) → κ → Prop) (fails : Fault → Prop) : Prop where
  mono : ∀ {known known' cursor}, known' ≤ known → has known cursor → has known' cursor
  ends : ∀ {known cursor cursor'} {query : Query} {outcome : Except Fault query.Answer},
    has known cursor → query.Safe known → Cursor.answer query cursor = (outcome, cursor') →
    query.Ends has fails known outcome cursor'

namespace Ground

variable [Cursor κ] {has : (known : Nat) → κ → Prop} {fails : Fault → Prop} {known : Nat}
  {cursor cursor' : κ} {post : α → Nat → Prop}

/-- **A careful reading asks safe questions only.** -/
theorem safe (ground : Ground has fails) {scan : Scan α} (careful : scan.Careful known post)
    (here : has known cursor) {query : Query} {mid : κ} (mem : (query, mid) ∈ scan.asked cursor) :
    ∃ known', has known' mid ∧ query.Safe known' := by
  induction scan generalizing known cursor with
  | done value => exact absurd mem List.not_mem_nil
  | fail fault => exact absurd mem List.not_mem_nil
  | locate next ih => exact ih _ _ (careful _ _) here mem
  | ask question next ih =>
    obtain ⟨safe, further⟩ := careful
    rw [Scan.asked] at mem
    rcases List.mem_cons.1 mem with first | later
    · obtain ⟨rfl, rfl⟩ := Prod.mk.inj first
      exact ⟨known, here, safe⟩
    · rcases put : Cursor.answer question cursor with ⟨outcome, cursor'⟩
      rw [put] at later
      cases ground.ends here safe put with
      | failed => exact absurd later List.not_mem_nil
      | answered leaves there => exact ih _ (further _ _ leaves) there later

/-- **A careful reading** leaves what it says, or it fails because of the input, or as the
cursor may fail. -/
theorem run (ground : Ground has fails) {scan : Scan α} (careful : scan.Careful known post)
    (here : has known cursor) {outcome : Except Fault α}
    (ran : scan.run cursor = (outcome, cursor')) :
    (∃ fault, outcome = .error fault ∧ (fault.isMalformed = true ∨ fails fault))
      ∨ ∃ value, outcome = .ok value ∧ ∃ known', post value known' ∧ has known' cursor' := by
  induction scan generalizing known cursor with
  | done value =>
    obtain ⟨rfl, rfl⟩ := Prod.mk.inj ran
    exact .inr ⟨value, rfl, known, careful, here⟩
  | fail fault =>
    obtain ⟨rfl, rfl⟩ := Prod.mk.inj ran
    exact .inl ⟨fault, rfl, .inl careful⟩
  | locate next ih => exact ih _ _ (careful _ _) here ran
  | ask query next ih =>
    obtain ⟨safe, further⟩ := careful
    rw [Scan.run] at ran
    rcases put : Cursor.answer query cursor with ⟨answer, mid⟩
    rw [put] at ran
    cases ground.ends here safe put with
    | @failed fault _ may =>
      obtain ⟨rfl, -⟩ := Prod.mk.inj ran
      exact .inl ⟨fault, rfl, .inr may⟩
    | answered leaves there => exact ih _ (further _ _ leaves) there ran

end Ground

/-- **What is found has room** in what was searched. -/
theorem Locates.le_of_find {find : Array UInt8 → Nat → Option Nat} {spot : Bytes → Prop}
    {width : Nat} (h : Locates find spot width) {held : Array UInt8} {start index : Nat}
    (found : find held start = some index) : start ≤ index ∧ index + width ≤ held.size := by
  have first := (h.find_eq_some_iff held start index).1 found
  refine ⟨first.le, ?_⟩
  have whole := first.holds
  rw [← List.take_length (l := held.toList), h.spot_drop_take_iff, Array.length_toList] at whole
  exact whole.2

/-! ## In memory -/

namespace InMemory

/-- **The next `known` bytes are there.** -/
structure Has (bytes : Array UInt8) (known : Nat) (memory : InMemory) : Prop where
  bytes_eq : memory.bytes = bytes
  le_size : memory.position + known ≤ bytes.size

/-- **In memory a safe question is answered.** -/
theorem ground (bytes : Array UInt8) : Ground (Has bytes) fun _ => False where
  mono le h := ⟨h.bytes_eq, (Nat.add_le_add_left le _).trans h.le_size⟩
  ends {known memory memory' query outcome} := by
    rintro ⟨rfl, inside⟩ safe put
    change memory.answer query = _ at put
    cases query with
    | peek offset =>
      obtain ⟨rfl, rfl⟩ := Prod.mk.inj put
      rcases looked : memory.bytes[memory.position + offset]? with _ | byte
      · exact .answered rfl ⟨rfl, inside⟩
      · have := (Array.getElem?_eq_some_iff.1 looked).1
        exact .answered rfl ⟨rfl, by omega⟩
    | advance count =>
      have enough := (safe.range_le rfl).2
      rw [InMemory.answer, if_pos (by unfold remaining; omega)] at put
      obtain ⟨rfl, rfl⟩ := Prod.mk.inj put
      refine .answered rfl ⟨rfl, ?_⟩
      show memory.position + count + (known - count) ≤ _
      omega
    | slice start stop =>
      obtain ⟨ordered, enough⟩ := safe.range_le rfl
      rw [InMemory.answer, if_pos ⟨ordered, by unfold remaining; omega⟩] at put
      obtain ⟨rfl, rfl⟩ := Prod.mk.inj put
      exact .answered rfl ⟨rfl, inside⟩
    | find needle start =>
      obtain ⟨rfl, rfl⟩ := Prod.mk.inj put
      rcases found : memory.offset? (findBytes memory.bytes needle (memory.position + start))
        with _ | index
      · exact .answered rfl ⟨rfl, inside⟩
      · obtain ⟨place, eq, rfl⟩ := exists_of_offset? found
        obtain ⟨le, fits⟩ := (locates_findBytes safe.sensible).le_of_find eq
        exact .answered ⟨by omega, rfl⟩ ⟨rfl, by omega⟩
    | findEither a b start =>
      obtain ⟨rfl, rfl⟩ := Prod.mk.inj put
      rcases found : memory.offset? (TableDump.findEither memory.bytes a b
        (memory.position + start)) with _ | index
      · exact .answered rfl ⟨rfl, inside⟩
      · obtain ⟨place, eq, rfl⟩ := exists_of_offset? found
        obtain ⟨le, fits⟩ := (locates_findEither a b).le_of_find eq
        exact .answered ⟨by omega, rfl⟩ ⟨rfl, by omega⟩
    | skipRest =>
      obtain ⟨rfl, rfl⟩ := Prod.mk.inj put
      exact .answered rfl ⟨rfl, le_rfl⟩
    | preview count =>
      obtain ⟨rfl, rfl⟩ := Prod.mk.inj put
      exact .answered rfl ⟨rfl, inside⟩

end InMemory

/-! ## Over a source -/

/-- **How a search can end.** -/
theorem Window.Shows.searched {bytes : Array UInt8} {window window' : Window}
    (h : window.Shows bytes) {find : Array UInt8 → Nat → Option Nat} {spot : Bytes → Prop}
    {width start : Nat} (locates : Locates find spot width) (hfloor : window.floor ≤ start)
    {outcome : Except Fault (Option Nat)}
    (e : window.search find (width - 1) start = (outcome, window')) :
    (∃ error, outcome = .error (.source error)) ∨ outcome = .ok none
      ∨ ∃ index, outcome = .ok (some index) ∧ start ≤ index
          ∧ index + width ≤ window'.buffered := by
  fun_induction Window.search window find (width - 1) start with
  | case1 window start place found =>
    obtain ⟨rfl, rfl⟩ := Prod.mk.inj e
    split at found
    case isFalse => cases found
    case isTrue =>
      obtain ⟨le, fits⟩ := locates.le_of_find found
      exact .inr (.inr ⟨_, rfl, by omega, by unfold buffered; omega⟩)
  | case2 window start nothing fault next ensured =>
    obtain ⟨rfl, rfl⟩ := Prod.mk.inj e
    cases (h.ensure ensured).2
    exact .inl ⟨_, rfl⟩
  | case3 window start nothing next ensured =>
    obtain ⟨rfl, rfl⟩ := Prod.mk.inj e
    exact .inr (.inl rfl)
  | case4 window start nothing next ensured ih =>
    simp only [dite_eq_ite] at ih
    obtain ⟨reaches, -⟩ := h.ensure ensured
    -- the search goes on from a place that is no earlier
    have later : start ≤ if start < window.buffered then max start (window.buffered - (width - 1))
        else start := by
      split <;> omega
    rcases ih reaches.shows (reaches.floor_eq.trans_le (hfloor.trans later)) e
      with failed | nothing | ⟨index, eq, le, fits⟩
    · exact .inl failed
    · exact .inr (.inl nothing)
    · exact .inr (.inr ⟨index, eq, later.trans le, fits⟩)

namespace Streaming

/-- **The next `known` bytes are held**, and nothing in front of the cursor has been
released. -/
structure Has (bytes : Array UInt8) (known : Nat) (stream : Streaming) : Prop where
  shows : stream.window.Shows bytes
  floor_le : stream.window.floor ≤ stream.position
  le_buffered : stream.position + known ≤ stream.window.buffered

namespace Has

variable {bytes : Array UInt8} {known : Nat} {stream stream' : Streaming}

/-- Of what is known less is known. -/
theorem mono {known' : Nat} (le : known' ≤ known) (h : stream.Has bytes known) :
    stream.Has bytes known' :=
  ⟨h.shows, h.floor_le, (Nat.add_le_add_left le _).trans h.le_buffered⟩

/-- At the start of a source. -/
theorem ofSource (bytes : Array UInt8) (script : List Reply) (sizing : Window.Sizing) :
    (Streaming.ofSource { bytes, script } sizing).Has bytes 0 :=
  ⟨.ofSource script sizing, le_rfl, Nat.zero_le _⟩

/-- What else is held in front of the cursor can be known. -/
theorem sup (h : stream.Has bytes known) {known' : Nat}
    (held : stream.position + known' ≤ stream.window.buffered) :
    stream.Has bytes (max known known') :=
  ⟨h.shows, h.floor_le, by have := h.le_buffered; omega⟩

/-- **Asking the source takes nothing away.** -/
theorem withWindow (h : stream.Has bytes known) {window : Window} {stop : Nat}
    (shows : window.Shows bytes) (asked : stream.window.Asked stop window) :
    (stream.withWindow window).Has bytes known :=
  ⟨shows, asked.floor_eq.trans_le h.floor_le, h.le_buffered.trans asked.buffered_le⟩

/-- **Nor does going to what is held**: only what is passed can be released. -/
theorem goTo (h : stream.Has bytes known) {place : Nat} (further : stream.position ≤ place)
    (held : place ≤ stream.window.buffered) :
    ∃ window, stream.window.discardBefore place = (.ok (), window)
      ∧ Has bytes (stream.window.buffered - place) { window, position := place } := by
  have hfloor := h.floor_le.trans further
  obtain ⟨window, discarded, floor_le, -⟩ := Window.discardBefore_near held hfloor
  obtain ⟨shows, buffered_eq⟩ := h.shows.released held hfloor discarded
  refine ⟨window, discarded, shows, floor_le, ?_⟩
  show place + (stream.window.buffered - place) ≤ window.buffered
  omega

/-! ### Questions -/

/-- A byte that is looked at is held then. -/
theorem peek (h : stream.Has bytes known) {offset : Nat} {outcome : Except Fault (Option UInt8)}
    (answered : stream.answer (.peek offset) = (outcome, stream')) :
    (∃ error, outcome = .error (.source error))
      ∨ ∃ found, outcome = .ok found ∧ ∃ known', (Query.peek offset).Leaves known found known'
          ∧ stream'.Has bytes known' := by
  rw [answer] at answered
  rcases looked : stream.window.byteAt (stream.position + offset) with ⟨outcome', window⟩
  rw [looked] at answered
  obtain ⟨rfl, rfl⟩ := Prod.mk.inj answered
  have shows := h.shows.of_byteAt looked
  have there := h.withWindow shows (Window.asked_byteAt looked)
  rcases h.shows.looked (h.floor_le.trans (Nat.le_add_right _ _)) looked
    with failed | ⟨byte, rfl, seen⟩ | ⟨rfl, -⟩
  · exact .inl failed
  · have inside := (List.getElem?_eq_some_iff.1 seen).1
    rw [shows.length_delivered] at inside
    exact .inr ⟨some byte, rfl, _, rfl, there.sup inside⟩
  · exact .inr ⟨none, rfl, known, rfl, there⟩

/-- So is what a search finds. -/
theorem search (h : stream.Has bytes known) {find : Array UInt8 → Nat → Option Nat}
    {spot : Bytes → Prop} {width start : Nat} (locates : Locates find spot width)
    {outcome : Except Fault (Option Nat)}
    (searched : stream.search find (width - 1) start = (outcome, stream')) :
    (∃ error, outcome = .error (.source error))
      ∨ (outcome = .ok none ∧ stream'.Has bytes known)
      ∨ ∃ index, outcome = .ok (some index) ∧ start ≤ index
          ∧ stream'.Has bytes (max known (index + width)) := by
  rw [Streaming.search] at searched
  rcases found : stream.window.search find (width - 1) (stream.position + start)
    with ⟨outcome', window⟩
  rw [found] at searched
  obtain ⟨rfl, rfl⟩ := Prod.mk.inj searched
  obtain ⟨stop, asked⟩ := Window.asked_search found
  have there := h.withWindow (h.shows.of_search found) asked
  rcases h.shows.searched locates (h.floor_le.trans (Nat.le_add_right _ _)) found
    with ⟨error, rfl⟩ | rfl | ⟨index, rfl, le, fits⟩
  · exact .inl ⟨error, rfl⟩
  · exact .inr (.inl ⟨rfl, there⟩)
  · refine .inr (.inr ⟨index - stream.position, rfl, by omega, there.sup ?_⟩)
    show stream.position + _ ≤ window.buffered
    omega

/-- **Going forward over what is known** does not fail. -/
theorem advance (h : stream.Has bytes known) {count : Nat} (enough : count ≤ known) :
    ∃ stream', stream.answer (.advance count) = (.ok (), stream')
      ∧ stream'.Has bytes (known - count) := by
  have held : stream.position + count ≤ stream.window.buffered :=
    (Nat.add_le_add_left enough _).trans h.le_buffered
  obtain ⟨window, discarded, there⟩ := h.goTo (Nat.le_add_right _ _) held
  refine ⟨{ window, position := stream.position + count }, ?_, there.mono ?_⟩
  · rw [answer, Streaming.advance]
    dsimp only
    rw [Window.ensure_of_le held]
    dsimp only
    rw [discarded]
  · have := h.le_buffered
    omega

/-- **Nor does cutting a piece** out of it. -/
theorem slice (h : stream.Has bytes known) {start stop : Nat} (ordered : start ≤ stop)
    (enough : stop ≤ known) :
    ∃ piece, stream.answer (.slice start stop) = (.ok piece, stream) := by
  have held : stream.position + stop ≤ stream.window.buffered :=
    (Nat.add_le_add_left enough _).trans h.le_buffered
  have hfloor : stream.window.floor ≤ stream.position + start :=
    h.floor_le.trans (Nat.le_add_right _ _)
  refine ⟨stream.window.between (stream.position + start) (stream.position + stop), ?_⟩
  rw [answer, Window.slice, Window.range, if_neg (by omega), if_neg (by omega),
    Window.ensure_of_le held]
  rfl

theorem skipHeld (h : stream.Has bytes known) :
    ∃ stream', stream.skipHeld = (.ok (), stream') ∧ stream'.Has bytes 0 := by
  unfold Streaming.skipHeld
  split
  case isTrue front =>
    obtain ⟨window, discarded, there⟩ := h.goTo front.le le_rfl
    rw [discarded]
    exact ⟨_, rfl, there.mono (Nat.zero_le _)⟩
  case isFalse => exact ⟨stream, rfl, h.mono (Nat.zero_le _)⟩

/-- Going to the end of the input fails only where the source does. -/
theorem skipRest (h : stream.Has bytes known) {outcome : Except Fault Unit}
    (skipped : stream.skipRest = (outcome, stream')) :
    (∃ error, outcome = .error (.source error)) ∨ outcome = .ok () ∧ stream'.Has bytes 0 := by
  -- each round skips what is held and asks for more
  fun_induction Streaming.skipRest stream generalizing known with
  | case1 stream fault next failed =>
    obtain ⟨_, passed, -⟩ := h.skipHeld
    cases passed.symm.trans failed
  | case2 stream next passed fault window ensured =>
    obtain ⟨_, passed', there⟩ := h.skipHeld
    obtain rfl := (Prod.mk.inj (passed'.symm.trans passed)).2
    obtain ⟨rfl, rfl⟩ := Prod.mk.inj skipped
    cases (there.shows.ensure ensured).2
    exact .inl ⟨_, rfl⟩
  | case3 stream next passed window ensured =>
    obtain ⟨_, passed', there⟩ := h.skipHeld
    obtain rfl := (Prod.mk.inj (passed'.symm.trans passed)).2
    obtain ⟨rfl, rfl⟩ := Prod.mk.inj skipped
    exact .inr ⟨rfl, there.withWindow (there.shows.ensure ensured).1.shows
      (Window.asked_ensure ensured)⟩
  | case4 stream next passed window ensured ih =>
    obtain ⟨_, passed', there⟩ := h.skipHeld
    obtain rfl := (Prod.mk.inj (passed'.symm.trans passed)).2
    exact ih (there.withWindow (there.shows.ensure ensured).1.shows
      (Window.asked_ensure ensured)) skipped

end Has

/-- **Over a source a safe question fails only if the source does.** -/
theorem ground (bytes : Array UInt8) :
    Ground (Has bytes) fun fault => ∃ error, fault = .source error where
  mono le h := h.mono le
  ends {known stream stream' query outcome} h safe put := by
    change stream.answer query = _ at put
    cases query with
    | peek offset =>
      rcases h.peek put with ⟨error, rfl⟩ | ⟨found, rfl, known', leaves, there⟩
      · exact .failed ⟨error, rfl⟩
      · exact .answered leaves there
    | advance count =>
      obtain ⟨_, answered, there⟩ := h.advance (safe.range_le rfl).2
      obtain ⟨rfl, rfl⟩ := Prod.mk.inj (put.symm.trans answered)
      exact .answered rfl there
    | slice start stop =>
      obtain ⟨ordered, enough⟩ := safe.range_le rfl
      obtain ⟨piece, answered⟩ := h.slice ordered enough
      obtain ⟨rfl, rfl⟩ := Prod.mk.inj (put.symm.trans answered)
      exact .answered rfl h
    | find needle start =>
      rcases h.search (locates_findBytes safe.sensible) put
        with ⟨error, rfl⟩ | ⟨rfl, there⟩ | ⟨index, rfl, le, there⟩
      · exact .failed ⟨error, rfl⟩
      · exact .answered rfl there
      · exact .answered ⟨le, rfl⟩ there
    | findEither a b start =>
      rcases h.search (locates_findEither a b) put
        with ⟨error, rfl⟩ | ⟨rfl, there⟩ | ⟨index, rfl, le, there⟩
      · exact .failed ⟨error, rfl⟩
      · exact .answered rfl there
      · exact .answered ⟨le, rfl⟩ there
    | skipRest =>
      rcases h.skipRest put with ⟨error, rfl⟩ | ⟨rfl, there⟩
      · exact .failed ⟨error, rfl⟩
      · exact .answered rfl there
    | preview count =>
      obtain ⟨rfl, rfl⟩ := Prod.mk.inj put
      exact .answered rfl (h.withWindow (h.shows.of_previewOnto rfl) (Window.asked_previewOnto rfl))

end Streaming

/-! ## Readers -/

/-- A fault of the input is one of a token, or one of the parentheses. -/
theorem Fault.category_of_isMalformed {fault : Fault} (h : fault.isMalformed = true) :
    fault.category = .lexical ∨ fault.category = .structural := by
  cases fault with
  | malformed cause place =>
    unfold category
    dsimp only
    cases cause.isStructural
    · exact .inl rfl
    · exact .inr rfl
  | shape | access | source => exact absurd h nofun

namespace Reader

section

variable [Cursor κ]

/-- The reader after some calls for a statement, whatever came of them. -/
def after : (count : Nat) → Reader κ → Reader κ
  | 0, reader => reader
  | count + 1, reader => after count reader.next.2

/-- The questions that the next call for a statement asks. -/
def asked (reader : Reader κ) : List (Query × κ) :=
  if reader.finished then [] else reader.settings.scanStatement.asked reader.cursor

/-- **The next call keeps the contract of the cursor**: it fails in certain ways only, and
each range that it takes for granted is in order and `there`. -/
structure KeepsContract (categories : List Category) (there : κ → (start stop : Nat) → Prop)
    (reader : Reader κ) : Prop where
  category_mem : ∀ fault, reader.next.1 = .error fault → fault.category ∈ categories
  range : ∀ query cursor start stop, (query, cursor) ∈ reader.asked →
    query.range? = some (start, stop) → start ≤ stop ∧ there cursor start stop

/-- **A reader that has not lost its footing**: where it goes on reading, it can. -/
def Stands (has : (known : Nat) → κ → Prop) (reader : Reader κ) : Prop :=
  reader.finished = false → has 0 reader.cursor

variable {has : (known : Nat) → κ → Prop} {fails : Fault → Prop} {reader : Reader κ}

/-- **A call for a statement** fails because of the input, or as the cursor may fail. -/
theorem Stands.next (h : reader.Stands has) (ground : Ground has fails) :
    reader.next.2.Stands has ∧ ∀ fault, reader.next.1 = .error fault →
      fault.isMalformed = true ∨ fails fault := by
  unfold Reader.next
  split
  case isTrue => exact ⟨h, nofun⟩
  case isFalse going =>
    rcases ran : reader.settings.scanStatement.run reader.cursor with ⟨outcome, cursor⟩
    rcases ground.run reader.settings.careful_scanStatement (h (Bool.eq_false_iff.2 going)) ran
      with ⟨fault, rfl, why⟩ | ⟨found, rfl, known, -, there⟩
    · refine ⟨nofun, ?_⟩
      rintro _ ⟨⟩
      exact why
    · cases found with
      | none => exact ⟨nofun, nofun⟩
      | some statement => exact ⟨fun _ => ground.mono (Nat.zero_le _) there, nofun⟩

/-- Any number of calls are like one. -/
theorem Stands.after (h : reader.Stands has) (ground : Ground has fails) (count : Nat) :
    (reader.after count).Stands has := by
  induction count generalizing reader with
  | zero => exact h
  | succ count ih => exact ih (h.next ground).1

/-- **So the contract is kept**, with what is known of the cursor. -/
theorem Stands.keepsContract (h : reader.Stands has) (ground : Ground has fails)
    {categories : List Category} {there : κ → (start stop : Nat) → Prop}
    (hfails : ∀ fault, fault.isMalformed = true ∨ fails fault → fault.category ∈ categories)
    (hthere : ∀ {known cursor start stop}, has known cursor → stop ≤ known →
      there cursor start stop) :
    reader.KeepsContract categories there where
  category_mem fault failed := hfails fault ((h.next ground).2 fault failed)
  range query cursor start stop mem ranged := by
    unfold asked at mem
    split at mem
    case isTrue => exact absurd mem List.not_mem_nil
    case isFalse going =>
      obtain ⟨known, here, safe⟩ := ground.safe reader.settings.careful_scanStatement
        (h (Bool.eq_false_iff.2 going)) mem
      obtain ⟨ordered, enough⟩ := safe.range_le ranged
      exact ⟨ordered, hthere here enough⟩

end

/-- **No call for a statement asks for what is not there.** Whatever the input, the settings
and the replies of the source, and however many calls came before:

* in memory a call fails with a fault of a token or of the parentheses only, and each piece
  that it cuts and each stretch that it goes over is in order and in the input;
* over a source it can also fail with an error of the source, but with nothing else, and
  each piece and each stretch is in order, held, and not released. -/
theorem next_keepsContract (bytes : Array UInt8) (script : List Reply) (settings : Settings)
    (count : Nat) :
    ((ofBytes bytes settings).after count).KeepsContract [.lexical, .structural]
        (fun cursor _ stop => cursor.position + stop ≤ bytes.size)
      ∧ ((ofSource { bytes, script } settings).after count).KeepsContract
          [.lexical, .structural, .io]
          (fun cursor start stop => cursor.window.floor ≤ cursor.position + start
            ∧ cursor.position + stop ≤ cursor.window.buffered
            ∧ cursor.window.buffered ≤ bytes.size) := by
  constructor
  · have begins : (ofBytes bytes settings).Stands (InMemory.Has bytes) :=
      fun _ => ⟨rfl, Nat.zero_le _⟩
    refine (begins.after (InMemory.ground bytes) count).keepsContract (InMemory.ground bytes)
      ?_ fun has enough => (Nat.add_le_add_left enough _).trans has.le_size
    rintro fault (malformed | ⟨⟨⟩⟩)
    rcases Fault.category_of_isMalformed malformed with eq | eq <;> rw [eq] <;> decide
  · have begins : (ofSource { bytes, script } settings).Stands (Streaming.Has bytes) :=
      fun _ => .ofSource bytes script settings.sizing
    refine (begins.after (Streaming.ground bytes) count).keepsContract (Streaming.ground bytes)
      ?_ fun has enough => ⟨has.floor_le.trans (Nat.le_add_right _ _),
        (Nat.add_le_add_left enough _).trans has.le_buffered,
        has.shows.buffered_eq.trans_le has.shows.given_le⟩
    rintro fault (malformed | ⟨error, rfl⟩)
    · rcases Fault.category_of_isMalformed malformed with eq | eq <;> rw [eq] <;> decide
    · show Category.io ∈ _
      decide

/-- In front of a text that does not end a word is cut out and gone over, and then a blank;
of the text, what stands before the backslash is cut out. -/
example : (ofBytes (bytesOf "a 'b\\")).asked.filterMap (fun entry => entry.1.range?)
    = [(0, 1), (0, 1), (0, 1), (1, 2)] := by
  decide +kernel

end Reader

end TableDump
