import Mathlib
import TableDump.Proofs.Effects

/-!
# What a sink is told

All that others see of a session is what it tells its sink: that a table is created, or
that a row is inserted (`Event`). A sink may accept an event or refuse it, and what it
makes of it besides is its own affair. To speak of the events of a session, a sink is
made to keep a log of what it is told (`Sink.logging`).

That this changes nothing is one case of something more general. Two sinks that answer
alike, in states that are related, cannot be told apart by a session (`Sink.Mimics`): it
comes to the same end with both, and knows the same afterwards (`Sink.Mimics.handle`).
-/

namespace TableDump

variable {σ σ' ε : Type}

/-! ## Events -/

/-- **What a sink is told.** -/
inductive Event where
  /-- A table is created. -/
  | table (table : String) (fields : List String)
  /-- A row is inserted. -/
  | row (table : String) (row : Row)
  deriving DecidableEq

/-- The name of the table, as the sink is given it. -/
def Event.tableName : Event → String
  | .table name _ => name
  | .row name _ => name

/-- An event that a sink was told, and whether it has accepted it. -/
structure Delivery where
  event : Event
  accepted : Bool
  deriving DecidableEq

namespace Sink

/-- **A sink that keeps a log of all that it is told**, in order, and answers as before. -/
def logging (sink : Sink σ ε) : Sink (σ × List Delivery) ε where
  ofFault := sink.ofFault
  onTable table fields := fun (state, log) =>
    let (outcome, state) := sink.onTable table fields state
    (outcome, state, log ++ [⟨.table table fields, outcome.isOk⟩])
  onRow table row := fun (state, log) =>
    let (outcome, state) := sink.onRow table row state
    (outcome, state, log ++ [⟨.row table row, outcome.isOk⟩])

/-- Some rows that are all accepted. -/
def acceptedRows (table : String) (rows : List Row) : List Delivery :=
  rows.map fun row => ⟨.row table row, true⟩

variable (sink : Sink σ ε) (table : String)

/-- A log has a definition, and whether it is accepted. -/
theorem onTable_logging (fields : List String) (logged : σ × List Delivery) :
    sink.logging.onTable table fields logged
      = ((sink.onTable table fields logged.1).1, (sink.onTable table fields logged.1).2,
        logged.2 ++ [⟨.table table fields, (sink.onTable table fields logged.1).1.isOk⟩]) :=
  rfl

/-- So it has a row. -/
theorem onRow_logging (row : Row) (logged : σ × List Delivery) :
    sink.logging.onRow table row logged
      = ((sink.onRow table row logged.1).1, (sink.onRow table row logged.1).2,
        logged.2 ++ [⟨.row table row, (sink.onRow table row logged.1).1.isOk⟩]) :=
  rfl

/-! ## Handing over rows -/

/-- **What a sink is told when it is handed some rows.** -/
def deliveries : List Row → σ → List Delivery
  | [], _ => []
  | row :: rows, state =>
    match sink.onRow table row state with
    | (.error _, _) => [⟨.row table row, false⟩]
    | (.ok (), state) => ⟨.row table row, true⟩ :: deliveries rows state

/-- A log has it. -/
theorem takeRows_logging (rows : List Row) (state : σ) (log : List Delivery) :
    sink.logging.takeRows table rows (state, log)
      = ((sink.takeRows table rows state).1, (sink.takeRows table rows state).2,
        log ++ sink.deliveries table rows state) := by
  induction rows generalizing state log with
  | nil =>
    rw [deliveries, List.append_nil]
    rfl
  | cons row rows ih =>
    rw [takeRows, takeRows, deliveries, onRow_logging]
    dsimp only
    rcases sink.onRow table row state with ⟨refusal | _, mid⟩
    · rfl
    · dsimp only
      rw [ih, List.append_assoc]
      rfl

/-- It is about rows of the table. -/
theorem exists_row_of_mem_deliveries {rows : List Row} {state : σ} {told : Delivery}
    (mem : told ∈ sink.deliveries table rows state) :
    ∃ row ∈ rows, told.event = .row table row := by
  induction rows generalizing state with
  | nil => exact absurd mem List.not_mem_nil
  | cons row rows ih =>
    rw [deliveries] at mem
    generalize sink.onRow table row state = asked at mem
    obtain ⟨refusal | _, mid⟩ := asked
    · obtain rfl := List.mem_singleton.1 mem
      exact ⟨row, List.mem_cons_self, rfl⟩
    · rcases List.mem_cons.1 mem with rfl | later
      · exact ⟨row, List.mem_cons_self, rfl⟩
      · obtain ⟨other, mem, event_eq⟩ := ih later
        exact ⟨other, List.mem_cons_of_mem row mem, event_eq⟩

/-- **Rows that are all accepted** are told as accepted. -/
theorem deliveries_of_ok {rows : List Row} {state state' : σ}
    (taken : sink.takeRows table rows state = (.ok (), state')) :
    sink.deliveries table rows state = acceptedRows table rows := by
  induction rows generalizing state with
  | nil => rfl
  | cons row rows ih =>
    rw [takeRows] at taken
    rw [deliveries]
    rcases here : sink.onRow table row state with ⟨refusal | _, mid⟩
    · simp [here] at taken
    · rw [here] at taken
      exact congrArg _ (ih taken)

/-- So a log has them. -/
theorem takeRows_logging_ok {rows : List Row} {state state' : σ} (log : List Delivery)
    (taken : sink.takeRows table rows state = (.ok (), state')) :
    sink.logging.takeRows table rows (state, log)
      = (.ok (), state', log ++ acceptedRows table rows) := by
  rw [takeRows_logging, taken, sink.deliveries_of_ok table taken]

/-- **Nothing is told behind a refusal.** -/
theorem deliveries_of_refused {front : List Row} {row : Row} {state mid state' : σ} {refusal : ε}
    (taken : sink.takeRows table front state = (.ok (), mid))
    (refused : sink.onRow table row mid = (.error refusal, state')) (back : List Row) :
    sink.deliveries table (front ++ row :: back) state
      = acceptedRows table front ++ [⟨.row table row, false⟩] := by
  induction front generalizing state with
  | nil =>
    obtain ⟨-, rfl⟩ := Prod.mk.inj taken
    rw [List.nil_append, deliveries, refused]
    rfl
  | cons other front ih =>
    rw [takeRows] at taken
    rw [List.cons_append, deliveries]
    rcases here : sink.onRow table other state with ⟨refusal | _, later⟩
    · simp [here] at taken
    · rw [here] at taken
      exact congrArg _ (ih taken)

/-- **The first row that is refused** is the last one that is handed over. -/
theorem exists_refused {rows : List Row} {state state' : σ} {refusal : ε}
    (taken : sink.takeRows table rows state = (.error refusal, state')) :
    ∃ front row back mid, rows = front ++ row :: back
      ∧ sink.takeRows table front state = (.ok (), mid)
      ∧ sink.onRow table row mid = (.error refusal, state') := by
  induction rows generalizing state with
  | nil => exact absurd (Prod.mk.inj taken).1 nofun
  | cons row rows ih =>
    rw [takeRows] at taken
    rcases here : sink.onRow table row state with ⟨found | _, mid⟩
    · rw [here] at taken
      exact ⟨[], row, rows, state, rfl, rfl, here.trans taken⟩
    · rw [here] at taken
      obtain ⟨front, other, back, mid', rfl, accepted, refused⟩ := ih taken
      refine ⟨row :: front, other, back, mid', rfl, ?_, refused⟩
      rw [takeRows, here]
      exact accepted

/-! ## Sinks that answer alike -/

/-- **Two sinks answer alike** in related states, and their states stay related. -/
structure Mimics (related : σ → σ' → Prop) (sink : Sink σ ε) (sink' : Sink σ' ε) : Prop where
  ofFault_eq : sink.ofFault = sink'.ofFault
  onTable : ∀ {state state'} (table : String) (fields : List String), related state state' →
    (sink.onTable table fields state).1 = (sink'.onTable table fields state').1
      ∧ related (sink.onTable table fields state).2 (sink'.onTable table fields state').2
  onRow : ∀ {state state'} (table : String) (row : Row), related state state' →
    (sink.onRow table row state).1 = (sink'.onRow table row state').1
      ∧ related (sink.onRow table row state).2 (sink'.onRow table row state').2

/-- A sink with a log answers like the one without. -/
theorem mimics_logging : Mimics (fun state logged => logged.1 = state) sink sink.logging where
  ofFault_eq := rfl
  onTable := by
    rintro _ ⟨state, log⟩ table fields rfl
    exact ⟨rfl, rfl⟩
  onRow := by
    rintro _ ⟨state, log⟩ table row rfl
    exact ⟨rfl, rfl⟩

end Sink

/-- **Sessions that differ in their sinks only**, and these have related states. -/
structure Session.Matches (related : σ → σ' → Prop) (session : Session σ) (session' : Session σ') :
    Prop where
  selection_eq : session.selection = session'.selection
  settings_eq : session.settings = session'.settings
  catalog_eq : session.catalog = session'.catalog
  tally_eq : session.tally = session'.tally
  sinkState : related session.sinkState session'.sinkState

namespace Sink.Mimics

variable {related : σ → σ' → Prop} {sink : Sink σ ε} {sink' : Sink σ' ε}

/-- Both take the same rows. -/
theorem takeRows (h : Mimics related sink sink') (table : String) (rows : List Row) {state : σ}
    {state' : σ'} (start : related state state') :
    (sink.takeRows table rows state).1 = (sink'.takeRows table rows state').1
      ∧ related (sink.takeRows table rows state).2 (sink'.takeRows table rows state').2 := by
  induction rows generalizing state state' with
  | nil => exact ⟨rfl, start⟩
  | cons row rows ih =>
    obtain ⟨agree, after⟩ := h.onRow table row start
    rw [Sink.takeRows, Sink.takeRows]
    generalize sink.onRow table row state = asked at agree after ⊢
    generalize sink'.onRow table row state' = asked' at agree after ⊢
    obtain ⟨outcome, later⟩ := asked
    obtain ⟨outcome', later'⟩ := asked'
    obtain rfl : outcome = outcome' := agree
    cases outcome with
    | error refusal => exact ⟨rfl, after⟩
    | ok _ => exact ih after

/-- And the same insertions. -/
theorem takeInsertion (h : Mimics related sink sink') (statement : Statement)
    (selection : Selection) (catalog : Catalog) {state : σ} {state' : σ'}
    (start : related state state') :
    (sink.takeInsertion statement selection catalog state).1
        = (sink'.takeInsertion statement selection catalog state').1
      ∧ related (sink.takeInsertion statement selection catalog state).2
          (sink'.takeInsertion statement selection catalog state').2 := by
  unfold Sink.takeInsertion
  rw [h.ofFault_eq]
  cases Insertion.ofStatement statement selection catalog with
  | error fault => exact ⟨rfl, start⟩
  | ok found =>
    cases found with
    | none => exact ⟨rfl, start⟩
    | some insertion =>
      dsimp only
      obtain ⟨agree, after⟩ := h.takeRows insertion.table insertion.rows start
      generalize sink.takeRows insertion.table insertion.rows state = taken at agree after ⊢
      generalize sink'.takeRows insertion.table insertion.rows state' = taken' at agree after ⊢
      obtain ⟨outcome, later⟩ := taken
      obtain ⟨outcome', later'⟩ := taken'
      obtain rfl : outcome = outcome' := agree
      cases outcome with
      | error refusal => exact ⟨rfl, after⟩
      | ok _ => cases insertion.defect? <;> exact ⟨rfl, after⟩

variable {session : Session σ} {session' : Session σ'}

theorem createTable (h : Mimics related sink sink') (definition : TableDefinition)
    (start : session.Matches related session') :
    (session.createTable sink definition).1 = (session'.createTable sink' definition).1
      ∧ (session.createTable sink definition).2.Matches related
          (session'.createTable sink' definition).2 := by
  obtain ⟨selection, settings, catalog, tally, state⟩ := session
  obtain ⟨selection', settings', catalog', tally', state'⟩ := session'
  obtain ⟨rfl, rfl, rfl, rfl, here⟩ := start
  unfold Session.createTable
  dsimp only
  rw [h.ofFault_eq]
  cases ensureDistinct (lowerCase definition.name) definition.fields with
  | error fault => exact ⟨rfl, rfl, rfl, rfl, rfl, here⟩
  | ok _ =>
    dsimp only
    obtain ⟨agree, after⟩ := h.onTable (lowerCase definition.name) definition.fields here
    generalize sink.onTable (lowerCase definition.name) definition.fields state = asked
      at agree after ⊢
    generalize sink'.onTable (lowerCase definition.name) definition.fields state' = asked'
      at agree after ⊢
    obtain ⟨outcome, later⟩ := asked
    obtain ⟨outcome', later'⟩ := asked'
    obtain rfl : outcome = outcome' := agree
    cases outcome with
    | error refusal => exact ⟨rfl, rfl, rfl, rfl, rfl, after⟩
    | ok _ => cases definition.fields.isEmpty <;> exact ⟨rfl, rfl, rfl, rfl, rfl, after⟩

theorem insertRows (h : Mimics related sink sink') (statement : Statement)
    (start : session.Matches related session') :
    (session.insertRows sink statement).1 = (session'.insertRows sink' statement).1
      ∧ (session.insertRows sink statement).2.Matches related
          (session'.insertRows sink' statement).2 := by
  obtain ⟨selection, settings, catalog, tally, state⟩ := session
  obtain ⟨selection', settings', catalog', tally', state'⟩ := session'
  obtain ⟨rfl, rfl, rfl, rfl, here⟩ := start
  unfold Session.insertRows
  dsimp only
  obtain ⟨agree, after⟩ := h.takeInsertion statement selection catalog here
  generalize sink.takeInsertion statement selection catalog state = taken at agree after ⊢
  generalize sink'.takeInsertion statement selection catalog state' = taken' at agree after ⊢
  obtain ⟨outcome, later⟩ := taken
  obtain ⟨outcome', later'⟩ := taken'
  obtain rfl : outcome = outcome' := agree
  rcases outcome with error | _ | rows <;> exact ⟨rfl, rfl, rfl, rfl, rfl, after⟩

/-- **A session cannot tell such sinks apart**: any statement comes to the same. -/
theorem handle (h : Mimics related sink sink') (statement : Statement)
    (start : session.Matches related session') :
    (session.handle sink statement).1 = (session'.handle sink' statement).1
      ∧ (session.handle sink statement).2.Matches related (session'.handle sink' statement).2 := by
  obtain ⟨selection_eq, settings_eq, catalog_eq, tally_eq, here⟩ := start
  unfold Session.handle Session.carryOut
  dsimp only
  rw [selection_eq, tally_eq]
  cases statement.command with
  | other => exact ⟨rfl, rfl, settings_eq, catalog_eq, rfl, here⟩
  | insert => exact h.insertRows statement ⟨rfl, settings_eq, catalog_eq, rfl, here⟩
  | create =>
    cases TableDefinition.ofStatement? statement session'.selection with
    | none => exact ⟨rfl, rfl, settings_eq, catalog_eq, rfl, here⟩
    | some definition => exact h.createTable definition ⟨rfl, settings_eq, catalog_eq, rfl, here⟩

/-- So do any statements. -/
theorem handOver (h : Mimics related sink sink') (statements : List Statement)
    (start : session.Matches related session') :
    (TableDump.handOver (Session.handle sink) statements session).1
        = (TableDump.handOver (Session.handle sink') statements session').1
      ∧ (TableDump.handOver (Session.handle sink) statements session).2.Matches related
          (TableDump.handOver (Session.handle sink') statements session').2 := by
  induction statements generalizing session session' with
  | nil => exact ⟨rfl, start⟩
  | cons statement statements ih =>
    obtain ⟨agree, after⟩ := h.handle statement start
    rw [TableDump.handOver, TableDump.handOver]
    generalize session.handle sink statement = handled at agree after ⊢
    generalize session'.handle sink' statement = handled' at agree after ⊢
    obtain ⟨outcome, later⟩ := handled
    obtain ⟨outcome', later'⟩ := handled'
    obtain rfl : outcome = outcome' := agree
    cases outcome with
    | error refusal => exact ⟨rfl, after⟩
    | ok _ => exact ih after

end Sink.Mimics

/-! ## Sessions with a log -/

namespace Session

/-- The session with a log beside the state of its sink. -/
def logging (session : Session σ) (log : List Delivery) : Session (σ × List Delivery) where
  selection := session.selection
  settings := session.settings
  catalog := session.catalog
  tally := session.tally
  sinkState := (session.sinkState, log)

/-- What the sink has been told. -/
def log (session : Session (σ × List Delivery)) : List Delivery := session.sinkState.2

theorem matches_logging (session : Session σ) (log : List Delivery) :
    session.Matches (fun state logged => logged.1 = state) (session.logging log) :=
  ⟨rfl, rfl, rfl, rfl, rfl⟩

end Session

end TableDump
