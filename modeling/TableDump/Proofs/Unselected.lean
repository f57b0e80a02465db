import Mathlib
import TableDump.Proofs.Effects

/-!
# Tables that are not chosen do not interfere

A session that is to extract some tables is not disturbed by the others. Take out of a
list of statements whatever concerns no chosen table, however ill-formed it is: then the
sink is told the same, the session knows the same of the tables, and the list is worked
through to the same end (`Session.handOver_chosen`).

Two runs are compared here that differ in their tallies. One of them may have seen more
statements, and skipped more insertions, and is the same everywhere else
(`Session.SameElsewhere`). What is taken out keeps it so, since all that it does is to be
counted (`Session.handle_of_not_concerns`), and what stays has the same effect on both,
since no effect depends on the tally (`Session.exists_handle`).
-/

namespace TableDump

variable {σ ε : Type}

/-- **Does a statement concern a chosen table?** If it is a definition, then of such a
table, and if it is an insertion, then it is not into another one. -/
def Statement.concerns (selection : Selection) (statement : Statement) : Bool :=
  match statement.command with
  | .create => (TableDefinition.ofStatement? statement selection).isSome
  | .insert => !statement.isForeign selection
  | .other => false

/-- **The statements that are handed over**: all of them up to the first one that is
refused, and this one too. -/
def handedOver (handle : Statement → σ → Except ε Unit × σ) : List Statement → σ → List Statement
  | [], _ => []
  | statement :: statements, state =>
    match handle statement state with
    | (.error _, _) => [statement]
    | (.ok (), state) => statement :: handedOver handle statements state

namespace Session

variable (sink : Sink σ ε) (statement : Statement)

/-- **A statement that concerns no chosen table** is counted, and that is all. -/
theorem handle_of_not_concerns {session : Session σ}
    (h : statement.concerns session.selection = false) :
    session.handle sink statement = (.ok (), { session with
      tally := session.tally.plus
        { statements := 1
          skipped := if statement.isForeign session.selection then 1 else 0 } }) := by
  unfold Statement.concerns at h
  unfold handle carryOut
  cases command : statement.command with
  | other =>
    rw [Statement.isForeign_of_ne_insert session.selection (by rw [command]; nofun)]
    rfl
  | create =>
    rw [command] at h
    have undefined : TableDefinition.ofStatement? statement session.selection = none := by
      simpa using h
    rw [Statement.isForeign_of_ne_insert session.selection (by rw [command]; nofun)]
    dsimp only
    rw [undefined]
    rfl
  | insert =>
    rw [command] at h
    have foreign : statement.isForeign session.selection = true := by simpa using h
    have silent := (Insertion.ofStatement_eq_none_iff session.selection session.catalog command).2
      foreign
    rw [foreign]
    unfold insertRows Sink.takeInsertion
    dsimp only
    rw [silent]
    rfl

/-- What counts as skipped is told by the statement. -/
theorem handle_skipped (session : Session σ) :
    (session.handle sink statement).2.tally.skipped
      = session.tally.skipped + if statement.isForeign session.selection then 1 else 0 := by
  obtain ⟨_, _, _, _, skipped, same⟩ := exists_handle sink statement session.selection
    session.catalog session.sinkState
  rw [← skipped]
  exact congrArg (·.2.tally.skipped) (same session.settings session.tally)

/-- **Two sessions are the same**, but for how many statements they have seen and how
many insertions they have skipped. -/
structure SameElsewhere (session session' : Session σ) : Prop where
  selection_eq : session.selection = session'.selection
  settings_eq : session.settings = session'.settings
  catalog_eq : session.catalog = session'.catalog
  sinkState_eq : session.sinkState = session'.sinkState
  schemas_eq : session.tally.schemas = session'.tally.schemas
  rows_eq : session.tally.rows = session'.tally.rows

namespace SameElsewhere

variable {session session' : Session σ}

/-- Any statement has the same effect on both. -/
theorem handle (h : session.SameElsewhere session') :
    (session.handle sink statement).1 = (session'.handle sink statement).1
      ∧ (session.handle sink statement).2.SameElsewhere (session'.handle sink statement).2 := by
  obtain ⟨selection, settings, catalog, tally, sinkState⟩ := session
  obtain ⟨selection', settings', catalog', tally', sinkState'⟩ := session'
  obtain ⟨rfl, rfl, rfl, rfl, schemas_eq, rows_eq⟩ := h
  obtain ⟨outcome, catalog', more, sinkState', -, same⟩ :=
    exists_handle sink statement selection catalog sinkState
  rw [same settings tally, same settings tally']
  exact ⟨rfl, rfl, rfl, rfl, rfl, congrArg (· + more.schemas) schemas_eq,
    congrArg (· + more.rows) rows_eq⟩

/-- A statement that concerns no chosen table can be left out in one of them. -/
theorem handle_left (h : session.SameElsewhere session')
    (silent : statement.concerns session.selection = false) :
    (session.handle sink statement).1 = .ok ()
      ∧ (session.handle sink statement).2.SameElsewhere session' := by
  rw [handle_of_not_concerns sink statement silent]
  exact ⟨rfl, h.selection_eq, h.settings_eq, h.catalog_eq, h.sinkState_eq, h.schemas_eq, h.rows_eq⟩

/-- **So can all such statements.** -/
theorem handOver (h : session.SameElsewhere session') {selection : Selection}
    (chosen : session.selection = selection) (statements : List Statement) :
    let whole := TableDump.handOver (Session.handle sink) statements session
    let part := TableDump.handOver (Session.handle sink)
      (statements.filter fun statement => statement.concerns selection) session'
    whole.1 = part.1 ∧ whole.2.SameElsewhere part.2 := by
  induction statements generalizing session session' with
  | nil => exact ⟨rfl, h⟩
  | cons statement statements ih =>
    have chosen' := (handle_selection sink statement session).trans chosen
    cases concerns : statement.concerns selection with
    | true =>
      obtain ⟨agree, after⟩ := h.handle sink statement
      rw [List.filter_cons_of_pos concerns, TableDump.handOver, TableDump.handOver]
      generalize session.handle sink statement = handled at chosen' agree after
      generalize session'.handle sink statement = handled' at agree after
      obtain ⟨outcome, later⟩ := handled
      obtain ⟨outcome', later'⟩ := handled'
      obtain rfl : outcome = outcome' := agree
      cases outcome with
      | error refusal => exact ⟨rfl, after⟩
      | ok _ => exact ih after chosen'
    | false =>
      obtain ⟨passes, after⟩ := h.handle_left sink statement (chosen ▸ concerns)
      rw [List.filter_cons_of_neg (by simp [concerns]), TableDump.handOver]
      generalize session.handle sink statement = handled at chosen' passes after
      obtain ⟨outcome, later⟩ := handled
      obtain rfl : outcome = .ok () := passes
      exact ih after chosen'

end SameElsewhere

/-- **As many insertions are skipped as are handed over** and are into tables that are
not chosen. -/
theorem handOver_skipped {selection : Selection} {session : Session σ}
    (chosen : session.selection = selection) (statements : List Statement) :
    (handOver (handle sink) statements session).2.tally.skipped
      = session.tally.skipped + (handedOver (handle sink) statements session).countP
          fun statement => statement.isForeign selection := by
  induction statements generalizing session with
  | nil => rfl
  | cons statement statements ih =>
    have chosen' := (handle_selection sink statement session).trans chosen
    have here := handle_skipped sink statement session
    rw [chosen] at here
    rw [handOver, handedOver]
    generalize session.handle sink statement = handled at chosen' here
    obtain ⟨refusal | _, later⟩ := handled
    · rw [List.countP_singleton]
      exact here
    · show (handOver (handle sink) statements later).2.tally.skipped
        = _ + (statement :: handedOver (handle sink) statements later).countP _
      rw [ih chosen', here, List.countP_cons, Nat.add_right_comm, Nat.add_assoc]

/-- **Tables that are not chosen do not interfere.** Take out of some statements those
that concern no chosen table: those that neither define nor fill a table, the
definitions of anything else than a chosen table, and the insertions into other tables,
whatever stands in them. What is left is worked through to the same end. The sink is
told the same, the catalog becomes the same, and as many tables and rows are counted. As
for the insertions taken out, those that were handed over count as skipped. -/
theorem handOver_chosen (statements : List Statement) (session : Session σ) :
    let whole := handOver (handle sink) statements session
    let part := handOver (handle sink)
      (statements.filter fun statement => statement.concerns session.selection) session
    whole.1 = part.1 ∧ whole.2.sinkState = part.2.sinkState ∧ whole.2.catalog = part.2.catalog
      ∧ whole.2.tally.rows = part.2.tally.rows ∧ whole.2.tally.schemas = part.2.tally.schemas
      ∧ whole.2.tally.skipped = session.tally.skipped
        + (handedOver (handle sink) statements session).countP
            fun statement => statement.isForeign session.selection := by
  have start : session.SameElsewhere session := ⟨rfl, rfl, rfl, rfl, rfl, rfl⟩
  obtain ⟨outcome_eq, same⟩ := start.handOver sink rfl statements
  exact ⟨outcome_eq, same.sinkState_eq, same.catalog_eq, same.rows_eq, same.schemas_eq,
    handOver_skipped sink rfl statements⟩

end Session

end TableDump
