import Mathlib
import TableDump.Proofs.Events
import TableDump.Proofs.Schemas

/-!
# Tables do not depend on each other

What a session tells its sink about a table is what it would tell if the statements on
that table were all that there are (`Session.handOver_separately`). Tables are the same
here when their names are, whatever the case of the letters.

Two runs are compared for one name at a time. They agree on a name if they know the same
of that table, and have told their sinks the same about it (`Session.Agrees`). A
statement on another table leaves such an agreement as it is
(`Session.handle_apart`). A statement on that table keeps it, since nothing that the
statement does depends on what is known of other tables (`Session.handle_agrees`).

So two statements on different tables may change places. Behind both of them the two
orders agree on each name: on that of the first table, since the second statement is
apart from it, and the other way round.

All this is about sinks that refuse nothing. A sink that refuses is free to refuse a row
because of the rows of another table that it was given before.
-/

namespace TableDump

variable {σ ε : Type}

/-! ## What a statement is about -/

namespace Statement

/-- **The name of the table** that a statement is to create or to fill, as the statement
has it. -/
def table? (statement : Statement) : Option String :=
  match statement.command, statement.tokens with
  | .create, _ :: .keyword .TABLE :: rest =>
    match TableDefinition.skipCondition rest with
    | .identifier name :: _ => some name
    | _ => none
  | .insert, _ :: .keyword .INTO :: .identifier name :: _ => some name
  | _, _ => none

/-- Is the statement on the table of this name, in any case? -/
def isAbout (name : String) (statement : Statement) : Bool :=
  statement.table?.any fun table => lowerCase table == lowerCase name

variable {statement : Statement} {name : String}

theorem isAbout_iff :
    statement.isAbout name = true
      ↔ ∃ table, statement.table? = some table ∧ lowerCase table = lowerCase name := by
  unfold isAbout
  rw [Option.any_eq_true]
  simp only [beq_iff_eq]

/-- A statement on one table is not on another. -/
theorem isAbout_eq_false {table : String} (here : statement.table? = some table)
    (other : lowerCase table ≠ lowerCase name) : statement.isAbout name = false := by
  unfold isAbout
  rw [here]
  exact beq_eq_false_iff_ne.2 other

/-- A definition is on the table that it defines. -/
theorem table?_of_definition {selection : Selection} {definition : TableDefinition}
    (command : statement.command = .create)
    (found : TableDefinition.ofStatement? statement selection = some definition) :
    statement.table? = some definition.name := by
  unfold TableDefinition.ofStatement? at found
  unfold table?
  rw [command]
  split at found
  case h_2 => exact absurd found nofun
  case h_1 verb rest tokens =>
    rw [tokens]
    split at found
    case h_2 => exact absurd found nofun
    case h_1 table body behind skipped =>
      dsimp only
      rw [skipped]
      split at found
      case isFalse => exact absurd found nofun
      case isTrue =>
        obtain rfl := Option.some.inj found
        rfl

/-- An insertion is on the table that it fills. -/
theorem table?_of_insertion {selection : Selection} {catalog : Catalog} {insertion : Insertion}
    (command : statement.command = .insert)
    (found : Insertion.ofStatement statement selection catalog = .ok (some insertion)) :
    statement.table? = some insertion.table := by
  obtain ⟨verb, table, list, tuples, columns?, -, -, tokens, rfl⟩ :=
    Insertion.exists_of_ofStatement found
  unfold table?
  rw [command, tokens]
  rfl

end Statement

/-- Is the event about the table of this name, in any case? -/
def Delivery.isAbout (name : String) (told : Delivery) : Bool :=
  lowerCase told.event.tableName == lowerCase name

/-- What is told of another table does not count. -/
theorem Delivery.filter_append_apart {name : String} (log : List Delivery) (told : Delivery)
    (other : lowerCase told.event.tableName ≠ lowerCase name) :
    (log ++ [told]).filter (isAbout name) = log.filter (isAbout name) := by
  have silent : told.isAbout name ≠ true := fun same => other (beq_iff_eq.1 same)
  rw [List.filter_append, List.filter_cons_of_neg silent, List.filter_nil, List.append_nil]

/-- **An insertion needs to know its own table only.** -/
theorem Insertion.ofStatement_congr {statement : Statement} (selection : Selection)
    {catalog catalog' : Catalog} (command : statement.command = .insert)
    (own : ∀ table, statement.table? = some table → catalog.fields? table = catalog'.fields? table) :
    ofStatement statement selection catalog = ofStatement statement selection catalog' := by
  unfold ofStatement
  split
  case h_2 => rfl
  case h_1 verb into named third fourth rest tokens =>
    by_cases keyword : into = .keyword .INTO
    · subst keyword
      cases named with
      | identifier table =>
        have here : statement.table? = some table := by
          unfold Statement.table?
          rw [command, tokens]
        dsimp only
        rw [own table here]
      | _ => rfl
    · rw [if_pos keyword, if_pos keyword]

/-! ## Sinks that refuse nothing -/

namespace Sink

/-- **A sink that refuses nothing.** -/
structure Accepting (sink : Sink σ ε) : Prop where
  onTable : ∀ table fields state, (sink.onTable table fields state).1 = .ok ()
  onRow : ∀ table row state, (sink.onRow table row state).1 = .ok ()

variable {sink : Sink σ ε}

/-- It takes all rows. -/
theorem Accepting.exists_takeRows (h : sink.Accepting) (table : String) (rows : List Row)
    (state : σ) : ∃ state', sink.takeRows table rows state = (.ok (), state') := by
  induction rows generalizing state with
  | nil => exact ⟨state, rfl⟩
  | cons row rows ih =>
    have here := h.onRow table row state
    rw [takeRows]
    generalize sink.onRow table row state = asked at here ⊢
    obtain ⟨outcome, mid⟩ := asked
    obtain rfl : outcome = .ok () := here
    exact ih mid

/-- And the log has them. -/
theorem Accepting.exists_takeRows_logging (h : sink.Accepting) (table : String) (rows : List Row)
    (logged : σ × List Delivery) :
    ∃ state', sink.logging.takeRows table rows logged
      = (.ok (), state', logged.2 ++ acceptedRows table rows) := by
  obtain ⟨state', taken⟩ := h.exists_takeRows table rows logged.1
  exact ⟨state', sink.takeRows_logging_ok table logged.2 taken⟩

/-- And every definition. -/
theorem Accepting.exists_onTable_logging (h : sink.Accepting) (table : String)
    (fields : List String) (logged : σ × List Delivery) :
    ∃ state', sink.logging.onTable table fields logged
      = (.ok (), state', logged.2 ++ [⟨.table table fields, true⟩]) := by
  have here := h.onTable table fields logged.1
  refine ⟨(sink.onTable table fields logged.1).2, ?_⟩
  rw [onTable_logging, here]
  rfl

/-- Rows of one table are not about another one, whatever comes of them. -/
theorem takeRows_log_apart (sink : Sink σ ε) {table name : String}
    (other : lowerCase table ≠ lowerCase name) (rows : List Row) (logged : σ × List Delivery) :
    (sink.logging.takeRows table rows logged).2.2.filter (Delivery.isAbout name)
      = logged.2.filter (Delivery.isAbout name) := by
  induction rows generalizing logged with
  | nil => rfl
  | cons row rows ih =>
    have here : (sink.logging.onRow table row logged).2.2.filter (Delivery.isAbout name)
        = logged.2.filter (Delivery.isAbout name) :=
      Delivery.filter_append_apart logged.2 ⟨.row table row, _⟩ other
    rw [takeRows, ← here]
    rcases sink.logging.onRow table row logged with ⟨refusal | _, logged'⟩
    · rfl
    · exact ih logged'

end Sink

/-! ## Runs that agree on a table -/

namespace Session

/-- **Two sessions agree on a name**: they know the same of that table, and have told
their sinks the same about it. -/
structure Agrees (name : String) (session session' : Session (σ × List Delivery)) : Prop where
  selection_eq : session.selection = session'.selection
  fields?_eq : session.catalog.fields? name = session'.catalog.fields? name
  log_eq : session.log.filter (Delivery.isAbout name) = session'.log.filter (Delivery.isAbout name)

namespace Agrees

variable {name : String} {first second third : Session (σ × List Delivery)}

theorem refl (name : String) (session : Session (σ × List Delivery)) :
    session.Agrees name session :=
  ⟨rfl, rfl, rfl⟩

theorem symm (h : first.Agrees name second) : second.Agrees name first :=
  ⟨h.selection_eq.symm, h.fields?_eq.symm, h.log_eq.symm⟩

theorem trans (h : first.Agrees name second) (h' : second.Agrees name third) :
    first.Agrees name third :=
  ⟨h.selection_eq.trans h'.selection_eq, h.fields?_eq.trans h'.fields?_eq,
    h.log_eq.trans h'.log_eq⟩

end Agrees

variable (sink : Sink σ ε) {statement : Statement} {name : String}

theorem createTable_apart {definition : TableDefinition}
    (other : lowerCase definition.name ≠ lowerCase name) (session : Session (σ × List Delivery)) :
    (session.createTable sink.logging definition).2.Agrees name session := by
  have elsewhere : lowerCase name ≠ lowerCase (lowerCase definition.name) := by
    rw [lowerCase_lowerCase]
    exact other.symm
  have told := fun accepted : Bool => Delivery.filter_append_apart session.log
    ⟨.table (lowerCase definition.name) definition.fields, accepted⟩ elsewhere.symm
  unfold createTable
  dsimp only
  cases ensureDistinct (lowerCase definition.name) definition.fields with
  | error fault => exact .refl name session
  | ok _ =>
    dsimp only
    rw [sink.onTable_logging]
    rcases sink.onTable (lowerCase definition.name) definition.fields session.sinkState.1
      with ⟨refusal | _, state⟩
    · exact ⟨rfl, rfl, told _⟩
    · dsimp only
      split
      · exact ⟨rfl, (Catalog.fields?_forget _ _ _).trans (if_neg elsewhere), told _⟩
      · exact ⟨rfl, (Catalog.fields?_define _ _ _ _).trans (if_neg elsewhere), told _⟩

theorem insertRows_apart (command : statement.command = .insert)
    (other : statement.isAbout name = false) (session : Session (σ × List Delivery)) :
    (session.insertRows sink.logging statement).2.Agrees name session := by
  unfold insertRows Sink.takeInsertion
  cases found : Insertion.ofStatement statement session.selection session.catalog with
  | error fault => exact ⟨rfl, rfl, rfl⟩
  | ok asked =>
    cases asked with
    | none => exact ⟨rfl, rfl, rfl⟩
    | some insertion =>
      have elsewhere : lowerCase insertion.table ≠ lowerCase name := by
        intro same
        have about := Statement.isAbout_iff.2
          ⟨insertion.table, Statement.table?_of_insertion command found, same⟩
        exact absurd (other.symm.trans about) nofun
      have told := sink.takeRows_log_apart elsewhere insertion.rows session.sinkState
      dsimp only
      generalize sink.logging.takeRows insertion.table insertion.rows session.sinkState
        = taken at told ⊢
      obtain ⟨refusal | _, logged⟩ := taken
      · exact ⟨rfl, rfl, told⟩
      · cases insertion.defect? <;> exact ⟨rfl, rfl, told⟩

/-- **A statement that is not on a table** changes nothing of it. -/
theorem handle_apart (other : statement.isAbout name = false)
    (session : Session (σ × List Delivery)) :
    (session.handle sink.logging statement).2.Agrees name session := by
  unfold handle carryOut
  cases command : statement.command with
  | other => exact ⟨rfl, rfl, rfl⟩
  | insert =>
    exact (insertRows_apart sink command other _).trans ⟨rfl, rfl, rfl⟩
  | create =>
    dsimp only
    cases found : TableDefinition.ofStatement? statement session.selection with
    | none => exact ⟨rfl, rfl, rfl⟩
    | some definition =>
      have elsewhere : lowerCase definition.name ≠ lowerCase name := by
        intro same
        have about := Statement.isAbout_iff.2
          ⟨definition.name, Statement.table?_of_definition command found, same⟩
        exact absurd (other.symm.trans about) nofun
      exact (createTable_apart sink elsewhere _).trans ⟨rfl, rfl, rfl⟩

/-! ## What a statement does to both -/

variable {sink}

/-- What both are told is the same. -/
theorem Agrees.filter_append {session session' : Session (σ × List Delivery)}
    (h : session.Agrees name session') (told : List Delivery) :
    (session.log ++ told).filter (Delivery.isAbout name)
      = (session'.log ++ told).filter (Delivery.isAbout name) := by
  rw [List.filter_append, List.filter_append, h.log_eq]

theorem createTable_agrees (accepting : sink.Accepting) (definition : TableDefinition)
    {session session' : Session (σ × List Delivery)} (h : session.Agrees name session') :
    (session.createTable sink.logging definition).1
        = (session'.createTable sink.logging definition).1
      ∧ (session.createTable sink.logging definition).2.Agrees name
          (session'.createTable sink.logging definition).2 := by
  unfold createTable
  dsimp only
  cases ensureDistinct (lowerCase definition.name) definition.fields with
  | error fault => exact ⟨rfl, h⟩
  | ok _ =>
    obtain ⟨state, told⟩ := accepting.exists_onTable_logging (lowerCase definition.name)
      definition.fields session.sinkState
    obtain ⟨state', told'⟩ := accepting.exists_onTable_logging (lowerCase definition.name)
      definition.fields session'.sinkState
    have log_eq := h.filter_append [⟨.table (lowerCase definition.name) definition.fields, true⟩]
    dsimp only
    rw [told, told']
    dsimp only
    split
    · refine ⟨rfl, h.selection_eq, ?_, log_eq⟩
      rw [Catalog.fields?_forget, Catalog.fields?_forget, h.fields?_eq]
    · refine ⟨rfl, h.selection_eq, ?_, log_eq⟩
      rw [Catalog.fields?_define, Catalog.fields?_define, h.fields?_eq]

theorem insertRows_agrees (accepting : sink.Accepting)
    {session session' : Session (σ × List Delivery)} (h : session.Agrees name session')
    (same : Insertion.ofStatement statement session.selection session.catalog
      = Insertion.ofStatement statement session'.selection session'.catalog) :
    (session.insertRows sink.logging statement).1 = (session'.insertRows sink.logging statement).1
      ∧ (session.insertRows sink.logging statement).2.Agrees name
          (session'.insertRows sink.logging statement).2 := by
  unfold insertRows Sink.takeInsertion
  rw [same]
  cases Insertion.ofStatement statement session'.selection session'.catalog with
  | error fault => exact ⟨rfl, h.selection_eq, h.fields?_eq, h.log_eq⟩
  | ok asked =>
    cases asked with
    | none => exact ⟨rfl, h.selection_eq, h.fields?_eq, h.log_eq⟩
    | some insertion =>
      obtain ⟨state, told⟩ := accepting.exists_takeRows_logging insertion.table insertion.rows
        session.sinkState
      obtain ⟨state', told'⟩ := accepting.exists_takeRows_logging insertion.table insertion.rows
        session'.sinkState
      have log_eq := h.filter_append (Sink.acceptedRows insertion.table insertion.rows)
      dsimp only
      rw [told, told']
      dsimp only
      cases insertion.defect? <;> exact ⟨rfl, h.selection_eq, h.fields?_eq, log_eq⟩

/-- **A statement comes to the same in two sessions** that know the same of its own
table, and the sessions go on agreeing on any name that they agree on. -/
theorem handle_agrees (accepting : sink.Accepting) {session session' : Session (σ × List Delivery)}
    (h : session.Agrees name session')
    (own : ∀ table, statement.table? = some table →
      session.catalog.fields? table = session'.catalog.fields? table) :
    (session.handle sink.logging statement).1 = (session'.handle sink.logging statement).1
      ∧ (session.handle sink.logging statement).2.Agrees name
          (session'.handle sink.logging statement).2 := by
  unfold handle carryOut
  cases command : statement.command with
  | other => exact ⟨rfl, h.selection_eq, h.fields?_eq, h.log_eq⟩
  | insert =>
    have same := Insertion.ofStatement_congr session.selection command own
    have counted : Agrees name
        { session with tally := { session.tally with statements := session.tally.statements + 1 } }
        { session' with
          tally := { session'.tally with statements := session'.tally.statements + 1 } } :=
      ⟨h.selection_eq, h.fields?_eq, h.log_eq⟩
    refine insertRows_agrees accepting counted ?_
    rw [same, h.selection_eq]
  | create =>
    dsimp only
    rw [h.selection_eq]
    cases TableDefinition.ofStatement? statement session'.selection with
    | none => exact ⟨rfl, rfl, h.fields?_eq, h.log_eq⟩
    | some definition =>
      exact createTable_agrees accepting definition ⟨rfl, h.fields?_eq, h.log_eq⟩

/-- A statement on a table keeps an agreement on that table. -/
theorem Agrees.handle {session session' : Session (σ × List Delivery)}
    (h : session.Agrees name session') (accepting : sink.Accepting)
    (about : statement.isAbout name = true) :
    (session.handle sink.logging statement).1 = (session'.handle sink.logging statement).1
      ∧ (session.handle sink.logging statement).2.Agrees name
          (session'.handle sink.logging statement).2 := by
  refine handle_agrees accepting h fun table here => ?_
  obtain ⟨_, here', same⟩ := Statement.isAbout_iff.1 about
  obtain rfl := Option.some.inj (here.symm.trans here')
  have known := h.fields?_eq
  unfold Catalog.fields? at known ⊢
  rwa [same]

/-! ## Whole runs -/

/-- **Statements on other tables can be left out.** -/
theorem Agrees.handOver_own {session session' : Session (σ × List Delivery)}
    (h : session.Agrees name session') (accepting : sink.Accepting) {statements : List Statement}
    (done : (handOver (Session.handle sink.logging) statements session).1 = .ok ()) :
    let part := handOver (Session.handle sink.logging)
      (statements.filter fun statement => statement.isAbout name) session'
    part.1 = .ok ()
      ∧ (handOver (Session.handle sink.logging) statements session).2.Agrees name part.2 := by
  induction statements generalizing session session' with
  | nil => exact ⟨rfl, h⟩
  | cons statement statements ih =>
    rw [handOver] at done ⊢
    cases about : statement.isAbout name with
    | true =>
      obtain ⟨agree, after⟩ := h.handle accepting about
      rw [List.filter_cons_of_pos about, handOver]
      generalize session.handle sink.logging statement = handled at done agree after ⊢
      generalize session'.handle sink.logging statement = handled' at agree after ⊢
      obtain ⟨outcome, later⟩ := handled
      obtain ⟨outcome', later'⟩ := handled'
      obtain rfl : outcome = outcome' := agree
      cases outcome with
      | error refusal => cases done
      | ok _ => exact ih after done
    | false =>
      have after := (handle_apart sink about session).trans h
      rw [List.filter_cons_of_neg (by simp [about])]
      generalize session.handle sink.logging statement = handled at done after ⊢
      obtain ⟨refusal | _, later⟩ := handled
      · cases done
      · exact ih after done

/-- **Two sessions agree on all tables.** -/
def AgreesOnAll (session session' : Session (σ × List Delivery)) : Prop :=
  ∀ name, session.Agrees name session'

namespace AgreesOnAll

variable {session session' : Session (σ × List Delivery)}

/-- Then any statement comes to the same, and they go on agreeing. -/
theorem handle (h : session.AgreesOnAll session') (accepting : sink.Accepting)
    (statement : Statement) :
    (session.handle sink.logging statement).1 = (session'.handle sink.logging statement).1
      ∧ (session.handle sink.logging statement).2.AgreesOnAll
          (session'.handle sink.logging statement).2 := by
  exact ⟨(handle_agrees accepting (h "") fun table _ => (h table).fields?_eq).1,
    fun name => (handle_agrees accepting (h name) fun table _ => (h table).fields?_eq).2⟩

/-- So do any statements. -/
theorem handOver (h : session.AgreesOnAll session') (accepting : sink.Accepting)
    (statements : List Statement) :
    (TableDump.handOver (Session.handle sink.logging) statements session).1
        = (TableDump.handOver (Session.handle sink.logging) statements session').1
      ∧ (TableDump.handOver (Session.handle sink.logging) statements session).2.AgreesOnAll
          (TableDump.handOver (Session.handle sink.logging) statements session').2 := by
  induction statements generalizing session session' with
  | nil => exact ⟨rfl, h⟩
  | cons statement statements ih =>
    obtain ⟨agree, after⟩ := h.handle accepting statement
    rw [TableDump.handOver, TableDump.handOver]
    generalize session.handle sink.logging statement = handled at agree after ⊢
    generalize session'.handle sink.logging statement = handled' at agree after ⊢
    obtain ⟨outcome, later⟩ := handled
    obtain ⟨outcome', later'⟩ := handled'
    obtain rfl : outcome = outcome' := agree
    cases outcome with
    | error refusal => exact ⟨rfl, after⟩
    | ok _ => exact ih after

end AgreesOnAll

/-- All that is told by statements on a table is about it. -/
theorem log_own (accepting : sink.Accepting) {statements : List Statement}
    {session : Session (σ × List Delivery)} (fresh : session.log = [])
    (about : ∀ statement ∈ statements, statement.isAbout name = true)
    (done : (handOver (handle sink.logging) statements session).1 = .ok ()) :
    (handOver (handle sink.logging) statements session).2.log.filter (Delivery.isAbout name)
      = (handOver (handle sink.logging) statements session).2.log := by
  rw [List.filter_eq_self]
  intro told mem
  by_contra other
  -- the run that leaves out all these statements has told as much of the other table
  have apart : statements.filter (fun statement => statement.isAbout told.event.tableName) = [] := by
    rw [List.filter_eq_nil_iff]
    intro statement listed same
    obtain ⟨table, here, same⟩ := Statement.isAbout_iff.1 same
    obtain ⟨_, here', same'⟩ := Statement.isAbout_iff.1 (about statement listed)
    obtain rfl := Option.some.inj (here.symm.trans here')
    exact other (beq_iff_eq.2 (same.symm.trans same'))
  have nothing := ((Agrees.refl told.event.tableName session).handOver_own accepting done).2.log_eq
  rw [apart, handOver, fresh, List.filter_nil, List.filter_eq_nil_iff] at nothing
  exact nothing told mem (beq_self_eq_true _)

/-- **Statements on different tables can change places**: each of them comes to what it
would come to without the other, and both together to the same. -/
theorem handle_swap (accepting : sink.Accepting) {first second : Statement} {table table' : String}
    (here : first.table? = some table) (there : second.table? = some table')
    (different : lowerCase table ≠ lowerCase table') (session : Session (σ × List Delivery)) :
    let behindFirst := (session.handle sink.logging first).2
    let behindSecond := (session.handle sink.logging second).2
    (behindFirst.handle sink.logging second).1 = (session.handle sink.logging second).1
      ∧ (behindSecond.handle sink.logging first).1 = (session.handle sink.logging first).1
      ∧ (behindFirst.handle sink.logging second).2.AgreesOnAll
          (behindSecond.handle sink.logging first).2 := by
  intro behindFirst behindSecond
  have past_first : ∀ name, lowerCase table ≠ lowerCase name → behindFirst.Agrees name session :=
    fun name other => handle_apart sink (Statement.isAbout_eq_false here other) session
  have past_second : ∀ name, lowerCase table' ≠ lowerCase name →
      behindSecond.Agrees name session :=
    fun name other => handle_apart sink (Statement.isAbout_eq_false there other) session
  -- each of them leaves the table of the other one as it was
  have own_second : ∀ name, second.table? = some name →
      behindFirst.catalog.fields? name = session.catalog.fields? name := by
    intro name same
    obtain rfl := Option.some.inj (there.symm.trans same)
    exact (past_first table' different).fields?_eq
  have own_first : ∀ name, first.table? = some name →
      behindSecond.catalog.fields? name = session.catalog.fields? name := by
    intro name same
    obtain rfl := Option.some.inj (here.symm.trans same)
    exact (past_second table different.symm).fields?_eq
  refine ⟨(handle_agrees accepting (past_first table' different) own_second).1,
    (handle_agrees accepting (past_second table different.symm) own_first).1, fun name => ?_⟩
  by_cases about : lowerCase table = lowerCase name
  · have other : lowerCase table' ≠ lowerCase name :=
      fun same => different (about.trans same.symm)
    have last : (behindFirst.handle sink.logging second).2.Agrees name behindFirst :=
      handle_apart sink (Statement.isAbout_eq_false there other) behindFirst
    exact last.trans (handle_agrees accepting (past_second name other) own_first).2.symm
  · have last : (behindSecond.handle sink.logging first).2.Agrees name behindSecond :=
      handle_apart sink (Statement.isAbout_eq_false here about) behindSecond
    exact (handle_agrees accepting (past_first name about) own_second).2.trans last.symm

/-- **And so they can in a run** that refuses none of them. -/
theorem handOver_swap (accepting : sink.Accepting) {first second : Statement} {table table' : String}
    (here : first.table? = some table) (there : second.table? = some table')
    (different : lowerCase table ≠ lowerCase table') {front back : List Statement}
    {session : Session (σ × List Delivery)}
    (done : (handOver (handle sink.logging) (front ++ first :: second :: back) session).1
      = .ok ()) :
    (handOver (handle sink.logging) (front ++ second :: first :: back) session).1 = .ok ()
      ∧ (handOver (handle sink.logging) (front ++ first :: second :: back) session).2.AgreesOnAll
          (handOver (handle sink.logging) (front ++ second :: first :: back) session).2 := by
  rw [handOver_append] at done
  rw [handOver_append, handOver_append]
  generalize handOver (handle sink.logging) front session = passed at done ⊢
  obtain ⟨refusal | _, session⟩ := passed
  · cases done
  obtain ⟨second_eq, first_eq, agree⟩ := handle_swap accepting here there different session
  simp only [handOver] at done ⊢
  generalize session.handle sink.logging first = handled at done second_eq first_eq agree ⊢
  generalize session.handle sink.logging second = handled' at second_eq first_eq agree ⊢
  obtain ⟨refusal | _, behindFirst⟩ := handled
  · cases done
  obtain ⟨outcome', behindSecond⟩ := handled'
  dsimp only at done second_eq first_eq agree ⊢
  generalize behindFirst.handle sink.logging second = both at done second_eq agree ⊢
  obtain ⟨refusal | _, behindBoth⟩ := both
  · cases done
  obtain rfl : .ok () = outcome' := second_eq
  dsimp only
  generalize behindSecond.handle sink.logging first = both' at first_eq agree ⊢
  obtain ⟨outcome, behindBoth'⟩ := both'
  obtain rfl : outcome = .ok () := first_eq
  obtain ⟨same, after⟩ := agree.handOver accepting back
  exact ⟨same.symm.trans done, after⟩

/-- **Tables do not depend on each other.** Let a session with a sink that refuses
nothing work through some statements, and let no statement fail. Of any table, by its
name in any case, the sink is told exactly what it would be told if there were only the
statements on that table. They do not fail either, and what is known of the table in the
end is the same.

So neighbours on different tables can change places: no statement fails then, and of
each table the sink is told the same, in the same order. -/
theorem handOver_separately (accepting : sink.Accepting) (selection : Selection)
    (settings : Settings) (state : σ) (statements : List Statement)
    (done : (handOver (handle sink) statements
      { selection, settings, sinkState := state }).1 = .ok ()) :
    let start : Session (σ × List Delivery) :=
      { selection, settings, sinkState := (state, []) }
    let whole := handOver (handle sink.logging) statements start
    (∀ name,
        let part := handOver (handle sink.logging)
          (statements.filter fun statement => statement.isAbout name) start
        part.1 = .ok ()
          ∧ whole.2.log.filter (Delivery.isAbout name) = part.2.log
          ∧ whole.2.catalog.fields? name = part.2.catalog.fields? name)
      ∧ ∀ front first second back table table', statements = front ++ first :: second :: back →
          first.table? = some table → second.table? = some table' →
          lowerCase table ≠ lowerCase table' →
        let swapped := handOver (handle sink.logging) (front ++ second :: first :: back) start
        swapped.1 = .ok ()
          ∧ ∀ name, whole.2.log.filter (Delivery.isAbout name)
              = swapped.2.log.filter (Delivery.isAbout name)
            ∧ whole.2.catalog.fields? name = swapped.2.catalog.fields? name := by
  intro start whole
  have logged := (sink.mimics_logging.handOver statements
    (matches_logging { selection, settings, sinkState := state } [])).1
  have done : whole.1 = .ok () := logged.symm.trans done
  constructor
  · intro name part
    obtain ⟨part_done, agree⟩ := (Agrees.refl name start).handOver_own accepting done
    refine ⟨part_done, ?_, agree.fields?_eq⟩
    rw [agree.log_eq]
    exact log_own accepting rfl (fun statement mem => (List.mem_filter.1 mem).2) part_done
  · rintro front first second back table table' rfl here there different swapped
    obtain ⟨swapped_done, agree⟩ := handOver_swap accepting here there different done
    exact ⟨swapped_done, fun name => ⟨(agree name).log_eq, (agree name).fields?_eq⟩⟩

/-- A definition of a table with one column. -/
def definitionOf (table column : String) : Statement :=
  ⟨[.keyword .CREATE, .keyword .TABLE, .identifier table,
    .group [.delimiter .leftParen, .identifier column, .delimiter .rightParen]]⟩

/-- An insertion of one number that names no column. -/
def insertionOf (table : String) (value : Int64) : Statement :=
  ⟨[.keyword .INSERT, .keyword .INTO, .identifier table, .keyword .VALUES,
    .group [.delimiter .leftParen, .integer value, .delimiter .rightParen]]⟩

/-- Statements on two tables by turns, one of the tables under two names. -/
def crossed : List Statement :=
  [definitionOf "T" "a", definitionOf "u" "b", insertionOf "t" 1, insertionOf "u" 2]

/-- Neither table notices the other one here, and the two statements in the middle can
change places. -/
theorem handOver_separately_crossed :
    let start : Session (Collected × List Delivery) := { selection := .all, sinkState := ({}, []) }
    let whole := handOver (handle Sink.collecting.logging) crossed start
    let part := handOver (handle Sink.collecting.logging)
      (crossed.filter fun statement => statement.isAbout "t") start
    (Sink.collecting.Accepting
        ∧ (handOver (handle .collecting) crossed { selection := .all, sinkState := {} }).1
          = .ok ()
        ∧ (definitionOf "u" "b").table? = some "u" ∧ (insertionOf "t" 1).table? = some "t"
        ∧ lowerCase "u" ≠ lowerCase "t")
      ∧ part.1 = .ok ()
      ∧ whole.2.log.filter (Delivery.isAbout "t") = part.2.log
      ∧ whole.2.catalog.fields? "t" = part.2.catalog.fields? "t"
      ∧ (handOver (handle Sink.collecting.logging)
          [definitionOf "T" "a", insertionOf "t" 1, definitionOf "u" "b", insertionOf "u" 2]
          start).1 = .ok () := by
  intro start whole part
  have accepting : Sink.collecting.Accepting := ⟨fun _ _ _ => rfl, fun _ _ _ => rfl⟩
  have done : (handOver (handle .collecting) crossed
      { selection := .all, sinkState := {} }).1 = .ok () := by decide +kernel
  have here : (definitionOf "u" "b").table? = some "u" := by decide +kernel
  have there : (insertionOf "t" 1).table? = some "t" := by decide +kernel
  have different : lowerCase "u" ≠ lowerCase "t" := by decide +kernel
  obtain ⟨parts, swaps⟩ := handOver_separately accepting .all {} {} crossed done
  obtain ⟨part_done, told, known⟩ := parts "t"
  obtain ⟨swapped_done, -⟩ := swaps [definitionOf "T" "a"] (definitionOf "u" "b")
    (insertionOf "t" 1) [insertionOf "u" 2] "u" "t" rfl here there different
  exact ⟨⟨accepting, done, here, there, different⟩, part_done, told, known, swapped_done⟩

end Session

end TableDump
