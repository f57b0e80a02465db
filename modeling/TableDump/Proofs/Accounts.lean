import Mathlib
import TableDump.Proofs.Independence

/-!
# What a session counts

The four numbers of a session's tally are kept in different places: a statement is counted
before anything is done about it, a definition when the sink has accepted it, rows when the
statement that they belong to is through, and an insertion into another table when that is
found out. Between these places there are errors, and a session goes on behind an error.

To say what the numbers mean, an account is kept of a session: an entry for each statement
that it works through, with what became of it and what the sink was told meanwhile
(`Entry`). The tally is right if its numbers can be found again in the account
(`Tally.AccountsFor`). So it is when a session begins, one statement adds to the tally what its
own entry accounts for (`Session.exists_entry`), and readers do nothing but hand over
statements. Hence it is right whatever a session is told to do (`Session.accounts_after`).
-/

namespace TableDump

variable {σ ε κ : Type}

/-! ## Accounts -/

/-- **What became of a statement.** -/
structure Entry where
  statement : Statement
  /-- Was it worked through without an error? -/
  succeeded : Bool
  /-- What the sink was told of it. -/
  told : List Delivery

namespace Delivery

/-- Is it about a row? -/
def isRow (delivery : Delivery) : Bool :=
  match delivery.event with
  | .row _ _ => true
  | .table _ _ => false

/-- Is it a definition with columns that the sink has accepted? -/
def isSchema (delivery : Delivery) : Bool :=
  match delivery.event with
  | .row _ _ => false
  | .table _ fields => delivery.accepted && !fields.isEmpty

end Delivery

namespace Entry

/-- Is it about an insertion that came to its end? -/
def isInsertion (entry : Entry) : Bool :=
  entry.succeeded && entry.statement.command == .insert

/-- Is it about one that goes to a table which is not chosen? -/
def isSkipped (selection : Selection) (entry : Entry) : Bool :=
  entry.isInsertion && entry.statement.table?.any fun table => !selection.contains table

/-- **An entry that holds together**: nothing that the sink was told was refused, if there
was no error, and rows belong to insertions. -/
structure Sound (entry : Entry) : Prop where
  accepted : entry.succeeded = true → ∀ delivery ∈ entry.told, delivery.accepted = true
  insertion : ∀ delivery ∈ entry.told, delivery.isRow = true → entry.statement.command = .insert

end Entry

/-- **A tally that is right**: it has the numbers that can be found in an account. -/
structure Tally.AccountsFor (tally : Tally) (selection : Selection) (entries : List Entry) :
    Prop where
  statements : tally.statements = entries.length
  schemas : tally.schemas = (entries.flatMap Entry.told).countP Delivery.isSchema
  rows : tally.rows = ((entries.filter Entry.isInsertion).flatMap Entry.told).countP
    fun delivery => delivery.isRow && delivery.accepted
  skipped : tally.skipped = entries.countP (Entry.isSkipped selection)

namespace Tally.AccountsFor

variable {selection : Selection} {entries more : List Entry}

/-- Nothing has been seen in the beginning. -/
theorem nil : AccountsFor {} selection [] := ⟨rfl, rfl, rfl, rfl⟩

/-- What belongs to one entry. -/
theorem singleton {entry : Entry} {schemas rows : Nat}
    (schemas_eq : schemas = entry.told.countP Delivery.isSchema)
    (rows_eq : rows = if entry.isInsertion then
      entry.told.countP fun delivery => delivery.isRow && delivery.accepted else 0) :
    AccountsFor
      { statements := 1, schemas, rows, skipped := if entry.isSkipped selection then 1 else 0 }
      selection [entry] where
  statements := rfl
  schemas := by rw [List.flatMap_singleton, schemas_eq]
  rows := by
    rw [rows_eq]
    by_cases kept : entry.isInsertion = true
    · rw [if_pos kept, List.filter_cons_of_pos kept, List.filter_nil, List.flatMap_singleton]
    · rw [if_neg kept, List.filter_cons_of_neg kept, List.filter_nil, List.flatMap_nil,
        List.countP_nil]
  skipped := by rw [List.countP_singleton]

/-- What is seen later is accounted for behind what was seen before. -/
theorem append {seen seen' : Tally} (before : seen.AccountsFor selection entries)
    (behind : seen'.AccountsFor selection more) :
    (seen.plus seen').AccountsFor selection (entries ++ more) where
  statements := by
    rw [List.length_append, ← before.statements, ← behind.statements]
    rfl
  schemas := by
    rw [List.flatMap_append, List.countP_append, ← before.schemas, ← behind.schemas]
    rfl
  rows := by
    rw [List.filter_append, List.flatMap_append, List.countP_append, ← before.rows, ← behind.rows]
    rfl
  skipped := by
    rw [List.countP_append, ← before.skipped, ← behind.skipped]
    rfl

/-- **Where nothing has failed, all rows count.** -/
theorem rows_of_succeeded {tally : Tally} (right : tally.AccountsFor selection entries)
    (sound : ∀ entry ∈ entries, entry.Sound)
    (succeeded : ∀ entry ∈ entries, entry.succeeded = true) :
    tally.rows = (entries.flatMap Entry.told).countP Delivery.isRow := by
  rw [right.rows]
  clear right
  induction entries with
  | nil => rfl
  | cons entry entries ih =>
    obtain ⟨accepted, insertion⟩ := sound entry List.mem_cons_self
    have well := succeeded entry List.mem_cons_self
    have others := ih (fun entry mem => sound entry (List.mem_cons_of_mem _ mem))
      fun entry mem => succeeded entry (List.mem_cons_of_mem _ mem)
    rw [List.flatMap_cons, List.countP_append, ← others]
    by_cases command : entry.statement.command = .insert
    · have kept : entry.isInsertion = true := by rw [Entry.isInsertion, well, command]; rfl
      rw [List.filter_cons_of_pos kept, List.flatMap_cons, List.countP_append]
      congr 1
      refine List.countP_congr fun delivery mem => ?_
      rw [accepted well delivery mem, Bool.and_true]
    · have dropped : ¬ entry.isInsertion = true := by simp [Entry.isInsertion, command]
      have none : entry.told.countP Delivery.isRow = 0 :=
        List.countP_eq_zero.2 fun delivery mem row => command (insertion delivery mem row)
      rw [List.filter_cons_of_neg dropped, none, Nat.zero_add]

end Tally.AccountsFor

/-! ## One statement -/

/-- **An insertion that comes to no error** goes to a table that is not chosen, or it is
read. -/
theorem Insertion.table?_of_ofStatement {statement : Statement} {selection : Selection}
    {catalog : Catalog} {asked : Option Insertion} (command : statement.command = .insert)
    (found : ofStatement statement selection catalog = .ok asked) :
    (statement.table?.any fun table => !selection.contains table) = asked.isNone := by
  cases asked with
  | none =>
    have foreign := (ofStatement_eq_none_iff selection catalog command).1 found
    unfold Statement.isForeign at foreign
    split at foreign
    case h_2 => cases foreign
    case h_1 tokens =>
      unfold Statement.table?
      rw [command, tokens]
      exact foreign
  | some insertion =>
    obtain ⟨_, table, _, _, _, chosen, -, -, rfl⟩ := exists_of_ofStatement found
    rw [Statement.table?_of_insertion command found]
    exact congrArg not chosen

namespace Sink

variable (sink : Sink σ ε)

/-- **What a sink is told of an insertion** are rows, as many as count if all goes well. -/
theorem exists_takeInsertion_logging (statement : Statement) (selection : Selection)
    (catalog : Catalog) (state : σ) :
    let taken := sink.takeInsertion statement selection catalog state
    ∃ told, (∀ log, sink.logging.takeInsertion statement selection catalog (state, log)
        = (taken.1, taken.2, log ++ told))
      ∧ (∀ delivery ∈ told, delivery.isRow = true)
      ∧ ∀ count?, taken.1 = .ok count? →
        (statement.command = .insert →
          (statement.table?.any fun table => !selection.contains table) = count?.isNone)
        ∧ told.length = count?.getD 0 ∧ ∀ delivery ∈ told, delivery.accepted = true := by
  dsimp only
  unfold takeInsertion
  cases found : Insertion.ofStatement statement selection catalog with
  | error fault => exact ⟨[], fun log => by rw [List.append_nil]; rfl, nofun, nofun⟩
  | ok asked =>
    cases asked with
    | none =>
      refine ⟨[], fun log => by rw [List.append_nil], nofun, ?_⟩
      rintro _ ⟨⟩
      exact ⟨fun command => Insertion.table?_of_ofStatement command found, rfl, nofun⟩
    | some insertion =>
      refine ⟨sink.deliveries insertion.table insertion.rows state, fun log => ?_,
        fun delivery mem => ?_, fun count? counted => ?_⟩
      · dsimp only
        rw [takeRows_logging]
        rcases sink.takeRows insertion.table insertion.rows state with ⟨refusal | _, state'⟩
        · rfl
        · dsimp only
          cases insertion.defect? <;> rfl
      · obtain ⟨row, -, event⟩ := sink.exists_row_of_mem_deliveries insertion.table mem
        rw [Delivery.isRow, event]
      · dsimp only at counted
        rcases taken : sink.takeRows insertion.table insertion.rows state with ⟨refusal | _, state'⟩
        · rw [taken] at counted
          cases counted
        · rw [taken] at counted
          cases wrong : insertion.defect? with
          | some fault =>
            rw [wrong] at counted
            cases counted
          | none =>
            rw [wrong] at counted
            cases counted
            rw [sink.deliveries_of_ok insertion.table taken]
            refine ⟨fun command => Insertion.table?_of_ofStatement command found,
              List.length_map _, fun delivery mem => ?_⟩
            obtain ⟨row, -, rfl⟩ := List.mem_map.1 mem
            rfl

end Sink

namespace Session

variable (sink : Sink σ ε)

/-- **A definition** adds to the schemas if the sink accepts it and it has columns. -/
theorem exists_createTable_logging (definition : TableDefinition) (session : Session σ) :
    let created := session.createTable sink definition
    ∃ told, (∀ log, (session.logging log).createTable sink.logging definition
        = (created.1, created.2.logging (log ++ told)))
      ∧ created.2.tally = session.tally.plus { schemas := told.countP Delivery.isSchema }
      ∧ ∀ delivery ∈ told, delivery.isRow = false
        ∧ (created.1.isOk = true → delivery.accepted = true) := by
  dsimp only
  unfold createTable logging
  dsimp only
  cases ensureDistinct (lowerCase definition.name) definition.fields with
  | error fault => exact ⟨[], fun log => by rw [List.append_nil]; rfl, rfl, nofun⟩
  | ok _ =>
    dsimp only
    rcases taken : sink.onTable (lowerCase definition.name) definition.fields session.sinkState
      with ⟨refusal | _, state⟩
    · refine ⟨[⟨.table (lowerCase definition.name) definition.fields, false⟩], fun log => ?_, rfl,
        fun delivery mem => ?_⟩
      · rw [sink.onTable_logging, taken]
        rfl
      · obtain rfl := List.mem_singleton.1 mem
        exact ⟨rfl, nofun⟩
    · refine ⟨[⟨.table (lowerCase definition.name) definition.fields, true⟩], fun log => ?_, ?_,
        fun delivery mem => ?_⟩
      · rw [sink.onTable_logging, taken]
        dsimp only
        split <;> rfl
      · rw [List.countP_singleton]
        unfold Delivery.isSchema
        by_cases none : definition.fields.isEmpty = true
        · simp only [none, if_true]
          rfl
        · simp only [none]
          rfl
      · obtain rfl := List.mem_singleton.1 mem
        exact ⟨rfl, fun _ => rfl⟩

/-- **An insertion** adds to the rows or to what is skipped, if it comes to no error. -/
theorem exists_insertRows_logging {statement : Statement} (command : statement.command = .insert)
    (session : Session σ) :
    let inserted := session.insertRows sink statement
    ∃ told, (∀ log, (session.logging log).insertRows sink.logging statement
        = (inserted.1, inserted.2.logging (log ++ told)))
      ∧ (∀ delivery ∈ told, delivery.isRow = true
        ∧ (inserted.1.isOk = true → delivery.accepted = true))
      ∧ inserted.2.tally = session.tally.plus
        { rows := if inserted.1.isOk then told.length else 0
          skipped := if inserted.1.isOk && statement.table?.any
            fun table => !session.selection.contains table then 1 else 0 } := by
  dsimp only
  unfold insertRows logging
  dsimp only
  obtain ⟨told, logged, rows, counted⟩ := sink.exists_takeInsertion_logging statement
    session.selection session.catalog session.sinkState
  refine ⟨told, fun log => ?_, fun delivery mem => ⟨rows delivery mem, ?_⟩, ?_⟩
  · rw [logged]
    rcases sink.takeInsertion statement session.selection session.catalog session.sinkState
      with ⟨error | _ | count, state⟩ <;> rfl
  · generalize sink.takeInsertion statement session.selection session.catalog session.sinkState
      = taken at counted
    rcases taken with ⟨error | _ | count, state⟩
    · exact nofun
    · exact fun _ => (counted none rfl).2.2 delivery mem
    · exact fun _ => (counted (some count) rfl).2.2 delivery mem
  · generalize sink.takeInsertion statement session.selection session.catalog session.sinkState
      = taken at counted
    rcases taken with ⟨error | _ | count, state⟩
    · rfl
    · obtain ⟨foreign, length_eq, -⟩ := counted none rfl
      dsimp only
      rw [foreign command, length_eq]
      rfl
    · obtain ⟨native, length_eq, -⟩ := counted (some count) rfl
      dsimp only
      rw [native command, length_eq]
      rfl

/-- **The entry of a statement** that a session works through. -/
def entry (sink : Sink σ ε) (statement : Statement) (session : Session σ) : Entry where
  statement
  succeeded := (session.handle sink statement).1.isOk
  told := ((session.logging []).handle sink.logging statement).2.log

/-- **What a statement does**: the sink is told what is in the entry, and the tally grows by
what the entry accounts for. -/
structure Enters (sink : Sink σ ε) (statement : Statement) (session : Session σ)
    (handled : Except ε Unit × Session σ) (entry : Entry) : Prop where
  logged : ∀ log, (session.logging log).handle sink.logging statement
    = (handled.1, handled.2.logging (log ++ entry.told))
  sound : entry.Sound
  seen : ∃ more : Tally, handled.2.tally = session.tally.plus more
    ∧ more.AccountsFor session.selection [entry]

variable {sink} {statement : Statement} {session : Session σ}
  {handled : Except ε Unit × Session σ} {told : List Delivery}

/-- What is no insertion adds to the schemas or to nothing. -/
theorem Enters.of_ne_insert (command : statement.command ≠ .insert)
    (logged : ∀ log, (session.logging log).handle sink.logging statement
      = (handled.1, handled.2.logging (log ++ told)))
    (tally_eq : handled.2.tally
      = session.tally.plus { statements := 1, schemas := told.countP Delivery.isSchema })
    (sound : ∀ delivery ∈ told, delivery.isRow = false
      ∧ (handled.1.isOk = true → delivery.accepted = true)) :
    Enters sink statement session handled ⟨statement, handled.1.isOk, told⟩ where
  logged := logged
  sound :=
    { accepted := fun succeeded delivery mem => (sound delivery mem).2 succeeded
      insertion := fun delivery mem row => by rw [(sound delivery mem).1] at row; cases row }
  seen := by
    refine ⟨_, tally_eq, ?_⟩
    have other : (⟨statement, handled.1.isOk, told⟩ : Entry).isInsertion = false := by
      simp [Entry.isInsertion, command]
    have counted : Tally.AccountsFor _ session.selection [⟨statement, handled.1.isOk, told⟩] :=
      .singleton rfl rfl
    simpa [Entry.isSkipped, other] using counted

/-- An insertion adds to the rows or to what is skipped. -/
theorem Enters.of_insert (command : statement.command = .insert)
    (logged : ∀ log, (session.logging log).handle sink.logging statement
      = (handled.1, handled.2.logging (log ++ told)))
    (sound : ∀ delivery ∈ told, delivery.isRow = true
      ∧ (handled.1.isOk = true → delivery.accepted = true))
    (tally_eq : handled.2.tally = session.tally.plus
      { statements := 1
        rows := if handled.1.isOk then told.length else 0
        skipped := if handled.1.isOk && statement.table?.any
          fun table => !session.selection.contains table then 1 else 0 }) :
    Enters sink statement session handled ⟨statement, handled.1.isOk, told⟩ where
  logged := logged
  sound :=
    { accepted := fun succeeded delivery mem => (sound delivery mem).2 succeeded
      insertion := fun _ _ _ => command }
  seen := by
    refine ⟨_, tally_eq, ?_⟩
    have finished : (⟨statement, handled.1.isOk, told⟩ : Entry).isInsertion = handled.1.isOk := by
      simp [Entry.isInsertion, command]
    have none : told.countP Delivery.isSchema = 0 := by
      refine List.countP_eq_zero.2 fun delivery mem schema => ?_
      have row := (sound delivery mem).1
      unfold Delivery.isRow at row
      unfold Delivery.isSchema at schema
      cases event : delivery.event <;> simp [event] at row schema
    have all : handled.1.isOk = true →
        told.countP (fun delivery => delivery.isRow && delivery.accepted) = told.length :=
      fun succeeded => List.countP_eq_length.2 fun delivery mem => by
        rw [(sound delivery mem).1, (sound delivery mem).2 succeeded]
        rfl
    have counted : Tally.AccountsFor _ session.selection [⟨statement, handled.1.isOk, told⟩] :=
      .singleton rfl rfl
    rw [Entry.isSkipped, finished, none] at counted
    by_cases succeeded : handled.1.isOk = true
    · rw [if_pos succeeded, all succeeded] at counted
      rwa [if_pos succeeded]
    · rw [if_neg succeeded] at counted
      rwa [if_neg succeeded]

/-- **Every statement does so.** -/
theorem exists_handle_enters (sink : Sink σ ε) (statement : Statement) (session : Session σ) :
    ∃ told, Enters sink statement session (session.handle sink statement)
      ⟨statement, (session.handle sink statement).1.isOk, told⟩ := by
  -- the statement is counted, and then carried out
  have begins : ∀ {τ : Type} (sink : Sink τ ε) (session : Session τ),
      session.handle sink statement
        = { session with tally := session.tally.plus { statements := 1 } }.carryOut sink
            statement := fun _ _ => rfl
  simp only [begins]
  cases command : statement.command with
  | other =>
    refine ⟨[], .of_ne_insert (by rw [command]; nofun) (fun log => ?_) ?_ nofun⟩
    · rw [begins, carryOut, carryOut, command, List.append_nil]
      rfl
    · rw [carryOut, command]
      rfl
  | create =>
    have other : statement.command ≠ .insert := by rw [command]; nofun
    cases defines : TableDefinition.ofStatement? statement session.selection with
    | none =>
      refine ⟨[], .of_ne_insert other (fun log => ?_) ?_ nofun⟩
      · rw [begins, carryOut, carryOut, command, List.append_nil]
        dsimp only [logging]
        rw [defines]
      · rw [carryOut, command]
        dsimp only
        rw [defines]
        rfl
    | some definition =>
      obtain ⟨told, logged, tally_eq, sound⟩ := exists_createTable_logging sink definition
        { session with tally := session.tally.plus { statements := 1 } }
      have carried : { session with tally := session.tally.plus { statements := 1 } }.carryOut sink
            statement
          = createTable sink definition
            { session with tally := session.tally.plus { statements := 1 } } := by
        rw [carryOut, command]
        dsimp only
        rw [defines]
      rw [carried]
      refine ⟨told, .of_ne_insert other (fun log => ?_) tally_eq sound⟩
      rw [← logged, begins, carryOut, command]
      dsimp only [logging]
      rw [defines]
  | insert =>
    obtain ⟨told, logged, sound, tally_eq⟩ := exists_insertRows_logging sink command
      { session with tally := session.tally.plus { statements := 1 } }
    have carried : { session with tally := session.tally.plus { statements := 1 } }.carryOut sink
          statement
        = insertRows sink statement
          { session with tally := session.tally.plus { statements := 1 } } := by
      rw [carryOut, command]
    rw [carried]
    refine ⟨told, .of_insert command (fun log => ?_) sound tally_eq⟩
    rw [← logged, begins, carryOut, command]
    rfl

/-- So the entry that is made of a statement is right. -/
theorem enters_entry (sink : Sink σ ε) (statement : Statement) (session : Session σ) :
    Enters sink statement session (session.handle sink statement)
      (session.entry sink statement) := by
  obtain ⟨told, enters⟩ := exists_handle_enters sink statement session
  have told_eq : ((session.logging []).handle sink.logging statement).2.log = told := by
    rw [enters.logged []]
    rfl
  rwa [entry, told_eq]

/-! ## Keeping an account -/

/-- **Works through one statement and makes an entry of it.** -/
def enter (sink : Sink σ ε) (statement : Statement) :
    Session σ × List Entry → Except ε Unit × Session σ × List Entry
  | (session, entries) =>
    let (outcome, session') := session.handle sink statement
    (outcome, session', entries ++ [session.entry sink statement])

/-- **An operation, and an account of it.** -/
def keepAccount (sink : Sink σ ε) (kept : Session σ × List Entry) :
    Operation → Session σ × List Entry
  | .text dump =>
    ((Reader.ofBytes (bytesOf dump) kept.1.settings).drive (enter sink) sink.ofFault kept).2.2
  | .source dump =>
    ((Reader.ofSource dump kept.1.settings).drive (enter sink) sink.ofFault kept).2.2
  | .statement statement => (enter sink statement kept).2

theorem keepAccount_eq (sink : Sink σ ε) (kept : Session σ × List Entry) (operation : Operation) :
    keepAccount sink kept operation
      = operation.run (enter sink) sink.ofFault (fun kept => kept.1.settings) kept := by
  cases operation <;> rfl

/-- What an operation gives back if it does not fail. This is a tally, if it is more than
one statement. -/
def answer (sink : Sink σ ε) (session : Session σ) : Operation → Except ε (Option Tally)
  | .text dump => (session.extractText sink dump).1.map some
  | .source dump => (session.extractSource sink dump).1.map some
  | .statement statement => (session.handle sink statement).1.map fun _ => none

/-- **None of the operations fails.** -/
def Smooth (sink : Sink σ ε) : Session σ → List Operation → Prop
  | _, [] => True
  | session, operation :: operations =>
    (session.answer sink operation).isOk = true ∧ Smooth sink (session.perform sink operation)
      operations

/-- An account is kept of this session, and its tally is right. -/
structure Balanced (selection : Selection) (session : Session σ) (kept : Session σ × List Entry) :
    Prop where
  session_eq : kept.1 = session
  selection_eq : session.selection = selection
  sound : ∀ entry ∈ kept.2, entry.Sound
  right : session.tally.AccountsFor selection kept.2

namespace Balanced

variable {selection : Selection} {session : Session σ} {kept : Session σ × List Entry}

/-- **One statement.** -/
theorem enter (sink : Sink σ ε) (statement : Statement) (h : Balanced selection session kept) :
    (Session.enter sink statement kept).1 = (session.handle sink statement).1
      ∧ Balanced selection (session.handle sink statement).2
          (Session.enter sink statement kept).2 := by
  obtain ⟨session, entries⟩ := kept
  obtain ⟨rfl, rfl, sound, right⟩ := h
  obtain ⟨-, sound', more, tally_eq, right'⟩ := enters_entry sink statement session
  refine ⟨rfl, rfl, handle_selection sink statement session, fun entry mem => ?_, ?_⟩
  · rcases List.mem_append.1 mem with mem | mem
    · exact sound entry mem
    · exact List.mem_singleton.1 mem ▸ sound'
  · rw [tally_eq]
    exact right.append right'

theorem perform (sink : Sink σ ε) (operation : Operation) (h : Balanced selection session kept) :
    Balanced selection (session.perform sink operation) (keepAccount sink kept operation) := by
  rw [perform_eq, keepAccount_eq]
  exact operation.run_related sink.ofFault
    (fun statement _ _ _ related => related.enter sink statement)
    (congrArg Session.settings h.session_eq) h

/-- **All operations keep the account.** -/
theorem after (sink : Sink σ ε) (operations : List Operation)
    (h : Balanced selection session kept) :
    Balanced selection (session.after sink operations)
      (operations.foldl (keepAccount sink) kept) :=
  List.foldl_rel h fun operation _ _ _ related => related.perform sink operation

end Balanced

/-! ## The log of an account -/

/-- A log has what is in the account. -/
def Copies (kept : Session σ × List Entry) (logged : Session (σ × List Delivery)) : Prop :=
  logged = kept.1.logging (kept.2.flatMap Entry.told)

namespace Copies

variable {kept : Session σ × List Entry} {logged : Session (σ × List Delivery)}

theorem enter (sink : Sink σ ε) (statement : Statement) (h : Copies kept logged) :
    (logged.handle sink.logging statement).1 = (Session.enter sink statement kept).1
      ∧ Copies (Session.enter sink statement kept).2 (logged.handle sink.logging statement).2 := by
  obtain ⟨session, entries⟩ := kept
  obtain rfl : logged = _ := h
  dsimp only
  rw [(enters_entry sink statement session).logged]
  refine ⟨rfl, ?_⟩
  unfold Copies Session.enter
  rw [List.flatMap_append, List.flatMap_singleton]

theorem perform (sink : Sink σ ε) (operation : Operation) (h : Copies kept logged) :
    Copies (keepAccount sink kept operation) (logged.perform sink.logging operation) := by
  rw [perform_eq, keepAccount_eq]
  exact operation.run_related sink.ofFault
    (fun statement _ _ _ related => related.enter sink statement) (congrArg Session.settings h) h

theorem after (sink : Sink σ ε) (operations : List Operation) (h : Copies kept logged) :
    Copies (operations.foldl (keepAccount sink) kept)
      (logged.after sink.logging operations) :=
  List.foldl_rel h fun operation _ _ _ related => related.perform sink operation

end Copies

end Session

/-! ## Sessions without errors -/

/-- **A reader that comes to its end** has handed over statements that were not refused: so it
is enough to follow these. -/
theorem Reader.driveWithin_related_of_ok {σ' : Type} [Cursor κ] {Related : σ → σ' → Prop}
    {handle : Statement → σ → Except ε Unit × σ} {handle' : Statement → σ' → Except ε Unit × σ'}
    (ofFault : Fault → ε)
    (step : ∀ statement state state' later, Related state state' →
      handle statement state = (.ok (), later) →
        ∃ later', handle' statement state' = (.ok (), later') ∧ Related later later') :
    ∀ (fuel count : Nat) (reader : Reader κ) (state : σ) (state' : σ'),
      (driveWithin handle ofFault fuel count reader state).1.isOk = true →
      Related state state' →
      Related (driveWithin handle ofFault fuel count reader state).2.2
        (driveWithin handle' ofFault fuel count reader state').2.2
  | 0, _, _, _, _, _, related => related
  | fuel + 1, count, reader, state, state', succeeds, related => by
    unfold driveWithin at succeeds ⊢
    rcases found : reader.next with ⟨_ | _ | statement, reader'⟩
    · exact related
    · exact related
    · rw [found] at succeeds
      dsimp only at succeeds ⊢
      rcases here : handle statement state with ⟨refusal | _, later⟩
      · rw [here] at succeeds
        cases succeeds
      · obtain ⟨later', here', related'⟩ := step statement state state' later related here
        rw [here] at succeeds
        rw [here']
        exact driveWithin_related_of_ok ofFault step fuel (count + 1) reader' later later' succeeds
          related'

namespace Session

/-- A session works through the statements of a reader without an error if the reader hands
them over without one. -/
theorem extract_isOk [Cursor κ] (sink : Sink σ ε) (reader : Reader κ) (session : Session σ) :
    (session.extract sink reader).1.isOk
      = (reader.drive (handle sink) sink.ofFault session).1.isOk := by
  unfold extract
  rcases reader.drive (handle sink) sink.ofFault session with ⟨_ | _, _, _⟩ <;> rfl

/-- **What a session gives back is its tally.** -/
theorem tally_of_extract [Cursor κ] {sink : Sink σ ε} {reader : Reader κ} {session : Session σ}
    {tally : Tally} (given : (session.extract sink reader).1 = .ok tally) :
    (session.extract sink reader).2.tally = tally := by
  unfold extract at given ⊢
  generalize reader.drive (handle sink) sink.ofFault session = driven at given ⊢
  obtain ⟨_ | _, _, later⟩ := driven
  · cases given
  · exact Except.ok.inj given

theorem tally_of_answer {sink : Sink σ ε} {session : Session σ} {operation : Operation}
    {tally : Tally} (given : session.answer sink operation = .ok (some tally)) :
    (session.perform sink operation).tally = tally := by
  have outright : ∀ {outcome : Except ε Tally}, outcome.map some = .ok (some tally) →
      outcome = .ok tally := by
    rintro (_ | _) ⟨⟩
    rfl
  cases operation with
  | statement statement =>
    rcases handled : session.handle sink statement with ⟨_ | _, _⟩ <;>
    · rw [answer, handled] at given
      cases given
  | text dump | source dump => exact tally_of_extract (outright given)

/-- **An account of what has not failed.** -/
def Unbroken (session : Session σ) (kept : Session σ × List Entry) : Prop :=
  kept.1 = session ∧ ∀ entry ∈ kept.2, entry.succeeded = true

namespace Unbroken

variable {sink : Sink σ ε} {session : Session σ} {kept : Session σ × List Entry}

theorem enter {statement : Statement} {later : Session σ} (h : Unbroken session kept)
    (succeeds : session.handle sink statement = (.ok (), later)) :
    ∃ kept', Session.enter sink statement kept = (.ok (), kept') ∧ Unbroken later kept' := by
  obtain ⟨session, entries⟩ := kept
  obtain ⟨rfl, succeeded⟩ := h
  refine ⟨(later, entries ++ [session.entry sink statement]), ?_, rfl, fun entry mem => ?_⟩
  · rw [Session.enter, succeeds]
  · rcases List.mem_append.1 mem with mem | mem
    · exact succeeded entry mem
    · obtain rfl := List.mem_singleton.1 mem
      rw [entry, succeeds]
      rfl

theorem drive [Cursor κ] {reader : Reader κ} (h : Unbroken session kept)
    (succeeds : (session.extract sink reader).1.isOk = true) :
    Unbroken (session.extract sink reader).2
      (reader.drive (Session.enter sink) sink.ofFault kept).2.2 := by
  rw [extract_isOk] at succeeds
  rw [extract_snd]
  exact Reader.driveWithin_related_of_ok sink.ofFault (fun _ _ _ _ related => related.enter) _ 0
    reader session kept succeeds h

theorem perform {operation : Operation} (h : Unbroken session kept)
    (succeeds : (session.answer sink operation).isOk = true) :
    Unbroken (session.perform sink operation) (keepAccount sink kept operation) := by
  have outright : ∀ {outcome : Except ε Tally}, (outcome.map some).isOk = true →
      outcome.isOk = true := by
    rintro (_ | _) succeeds
    · cases succeeds
    · rfl
  cases operation with
  | statement statement =>
    rcases handled : session.handle sink statement with ⟨_ | _, later⟩
    · rw [answer, handled] at succeeds
      cases succeeds
    · obtain ⟨kept', entered, unbroken⟩ := h.enter handled
      rw [keepAccount, entered, Session.perform, handled]
      exact unbroken
  | text dump | source dump =>
    rw [keepAccount, h.1]
    exact h.drive (outright succeeds)

theorem after {operations : List Operation} (h : Unbroken session kept)
    (smooth : Smooth sink session operations) :
    Unbroken (session.after sink operations) (operations.foldl (keepAccount sink) kept) := by
  induction operations generalizing session kept with
  | nil => exact h
  | cons operation operations ih => exact ih (h.perform smooth.1) smooth.2

end Unbroken

/-! ## Whole sessions -/

/-- **What a session counts is what has happened.** Whatever a session is told to do, and
whatever its sink makes of it, its tally has the numbers that are found in an account of the
session: the statements that it has worked through, among them those that failed; the
definitions with columns that the sink has accepted; the rows that the sink has accepted of
insertions that came to no error; and the insertions into other tables, if they came to none.

So if nothing has failed, the rows are all that the sink was told of. And what an operation
gives back is the tally behind it. -/
theorem accounts_after (sink : Sink σ ε) (selection : Selection) (settings : Settings) (state : σ)
    (operations : List Operation) :
    let start : Session σ := { selection, settings, sinkState := state }
    let session := start.after sink operations
    ∃ entries, operations.foldl (keepAccount sink) (start, []) = (session, entries)
      ∧ (start.logging []).after sink.logging operations
        = session.logging (entries.flatMap Entry.told)
      ∧ session.tally.AccountsFor selection entries
      ∧ (start.Smooth sink operations →
        session.tally.rows = (entries.flatMap Entry.told).countP Delivery.isRow)
      ∧ ∀ operation tally, session.answer sink operation = .ok (some tally) →
        (session.perform sink operation).tally = tally := by
  intro start session
  have balanced : Balanced selection session (operations.foldl (keepAccount sink) (start, [])) :=
    Balanced.after sink operations ⟨rfl, rfl, nofun, .nil⟩
  have copies : Copies (operations.foldl (keepAccount sink) (start, []))
      ((start.logging []).after sink.logging operations) := Copies.after sink operations rfl
  have unbroken : start.Smooth sink operations →
      Unbroken session (operations.foldl (keepAccount sink) (start, [])) :=
    Unbroken.after ⟨rfl, nofun⟩
  generalize operations.foldl (keepAccount sink) (start, []) = kept at balanced copies unbroken ⊢
  obtain ⟨kept, entries⟩ := kept
  obtain ⟨rfl, -, sound, right⟩ := balanced
  exact ⟨entries, rfl, copies, right,
    fun smooth => right.rows_of_succeeded sound (unbroken smooth).2, fun _ _ => tally_of_answer⟩

/-- A row, an insertion into another table, and an empty statement. -/
theorem accounts_after_text :
    let start : Session Collected := { selection := .only ["t"], sinkState := {} }
    let operations := [.text "INSERT INTO t VALUES(1);INSERT INTO u VALUES(2);;"]
    let session := start.after .collecting operations
    start.Smooth .collecting operations
      ∧ ∃ entries, operations.foldl (keepAccount .collecting) (start, []) = (session, entries)
        ∧ session.tally.AccountsFor (.only ["t"]) entries
        ∧ session.tally.rows = (entries.flatMap Entry.told).countP Delivery.isRow := by
  have smooth : Smooth Sink.collecting { selection := .only ["t"], sinkState := {} }
      [.text "INSERT INTO t VALUES(1);INSERT INTO u VALUES(2);;"] := ⟨by decide +kernel, trivial⟩
  obtain ⟨entries, kept, -, right, rows, -⟩ := accounts_after .collecting (.only ["t"]) {} {}
    [.text "INSERT INTO t VALUES(1);INSERT INTO u VALUES(2);;"]
  exact ⟨smooth, entries, kept, right, rows smooth⟩

end Session

end TableDump
