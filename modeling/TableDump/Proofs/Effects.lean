import Mathlib
import TableDump.Proofs.Course

/-!
# What a statement does to a session

A statement is refused or not, changes the catalog, is told to the sink, and adds to
what has been seen. All this depends on which tables are chosen, on the catalog and
on the state of the sink, and on nothing else of the session: not on how dumps are
read, and not on what has been seen before (`Session.exists_handle`). What counts as
skipped is told by the statement alone (`Statement.isForeign`).

So it goes with statements that are handed over one after the other, and those can be
handed over in two lots (`handOver_append`).
-/

namespace TableDump

variable {σ ε : Type}

/-- What has been seen, and what is seen behind it. -/
def Tally.plus (seen more : Tally) : Tally where
  statements := seen.statements + more.statements
  schemas := seen.schemas + more.schemas
  rows := seen.rows + more.rows
  skipped := seen.skipped + more.skipped

/-! ## Insertions into other tables -/

/-- **An insertion into a table that is not chosen**, whatever stands behind the name of
the table. There are five tokens at least. -/
def Statement.isForeign (selection : Selection) (statement : Statement) : Bool :=
  match statement.command, statement.tokens with
  | .insert, _ :: .keyword .INTO :: .identifier table :: _ :: _ :: _ => !selection.contains table
  | _, _ => false

theorem Statement.isForeign_of_ne_insert {statement : Statement} (selection : Selection)
    (h : statement.command ≠ .insert) : statement.isForeign selection = false := by
  unfold isForeign
  split
  case h_1 command _ => exact absurd command h
  case h_2 => rfl

/-- These are the insertions of which nothing is said. -/
theorem Insertion.ofStatement_eq_none_iff {statement : Statement} (selection : Selection)
    (catalog : Catalog) (insertion : statement.command = .insert) :
    ofStatement statement selection catalog = .ok none
      ↔ statement.isForeign selection = true := by
  unfold ofStatement Statement.isForeign
  rw [insertion]
  split
  case h_2 short =>
    split
    case h_1 tokens => exact absurd tokens (short _ _ _ _ _ _)
    case h_2 => simp
  case h_1 verb into named third fourth rest tokens =>
    rw [tokens]
    by_cases keyword : into = .keyword .INTO
    · subst keyword
      cases named with
      | identifier table =>
        cases chosen : selection.contains table with
        | false => simp [chosen]
        | true =>
          -- then there is an insertion, or a fault
          simp only [ne_eq, not_true_eq_false, if_false, chosen, if_true, Bool.not_true]
          split
          · split
            · simp
            · split <;> simp
          · split <;> simp
      | _ => simp
    · rw [if_pos keyword]
      simp [keyword]

/-- And then the sink is told nothing. -/
theorem Sink.takeInsertion_eq_none_iff (sink : Sink σ ε) {statement : Statement}
    {selection : Selection} {catalog : Catalog} (state : σ) :
    (sink.takeInsertion statement selection catalog state).1 = .ok none
      ↔ Insertion.ofStatement statement selection catalog = .ok none := by
  unfold takeInsertion
  cases Insertion.ofStatement statement selection catalog with
  | error fault => simp
  | ok found =>
    cases found with
    | none => simp
    | some insertion =>
      dsimp only
      rcases sink.takeRows insertion.table insertion.rows state with ⟨refusal | _, state'⟩
      · simp
      · cases insertion.defect? <;> simp

namespace Session

/-- **The effect of a statement**, for all sessions that have chosen the same tables,
know the same of them, and have their sinks in the same state. -/
theorem exists_handle (sink : Sink σ ε) (statement : Statement) (selection : Selection)
    (catalog : Catalog) (sinkState : σ) :
    ∃ (outcome : Except ε Unit) (catalog' : Catalog) (more : Tally) (sinkState' : σ),
      (more.skipped = if statement.isForeign selection then 1 else 0)
        ∧ ∀ settings tally,
          handle sink statement { selection, settings, catalog, tally, sinkState }
            = (outcome, { selection, settings, catalog := catalog', tally := tally.plus more,
                          sinkState := sinkState' }) := by
  unfold handle carryOut
  cases command : statement.command with
  | other =>
    have native := Statement.isForeign_of_ne_insert selection (by rw [command]; nofun)
    rw [native]
    exact ⟨.ok (), catalog, { statements := 1 }, sinkState, rfl, fun _ _ => rfl⟩
  | insert =>
    have foreign := Insertion.ofStatement_eq_none_iff selection catalog command
    rw [← sink.takeInsertion_eq_none_iff sinkState] at foreign
    unfold insertRows
    dsimp only
    generalize sink.takeInsertion statement selection catalog sinkState = taken at foreign ⊢
    rcases taken with ⟨error | _ | rows, state⟩
    · exact ⟨.error error, catalog, { statements := 1 }, state,
        (if_neg (foreign.not.1 nofun)).symm, fun _ _ => rfl⟩
    · exact ⟨.ok (), catalog, { statements := 1, skipped := 1 }, state,
        (if_pos (foreign.1 rfl)).symm, fun _ _ => rfl⟩
    · exact ⟨.ok (), catalog, { statements := 1, rows }, state,
        (if_neg (foreign.not.1 nofun)).symm, fun _ _ => rfl⟩
  | create =>
    have native := Statement.isForeign_of_ne_insert selection (by rw [command]; nofun)
    rw [native]
    dsimp only
    rcases TableDefinition.ofStatement? statement selection with _ | definition
    · exact ⟨.ok (), catalog, { statements := 1 }, sinkState, rfl, fun _ _ => rfl⟩
    · unfold createTable
      dsimp only
      rcases ensureDistinct (lowerCase definition.name) definition.fields with fault | _
      · exact ⟨.error (sink.ofFault (.shape fault)), catalog, { statements := 1 }, sinkState, rfl,
          fun _ _ => rfl⟩
      · dsimp only
        rcases sink.onTable (lowerCase definition.name) definition.fields sinkState
          with ⟨refusal | _, state⟩
        · exact ⟨.error refusal, catalog, { statements := 1 }, state, rfl, fun _ _ => rfl⟩
        · cases definition.fields.isEmpty
          · exact ⟨.ok (), catalog.define (lowerCase definition.name) definition.fields,
              { statements := 1, schemas := 1 }, state, rfl, fun _ _ => rfl⟩
          · exact ⟨.ok (), catalog.forget (lowerCase definition.name), { statements := 1 }, state,
              rfl, fun _ _ => rfl⟩

/-- A statement does not change how dumps are read. -/
theorem handle_settings (sink : Sink σ ε) (statement : Statement) (session : Session σ) :
    (session.handle sink statement).2.settings = session.settings := by
  obtain ⟨_, _, _, _, -, same⟩ := exists_handle sink statement session.selection session.catalog
    session.sinkState
  exact congrArg (·.2.settings) (same session.settings session.tally)

/-- Nor which tables are chosen. -/
theorem handle_selection (sink : Sink σ ε) (statement : Statement) (session : Session σ) :
    (session.handle sink statement).2.selection = session.selection := by
  obtain ⟨_, _, _, _, -, same⟩ := exists_handle sink statement session.selection session.catalog
    session.sinkState
  exact congrArg (·.2.selection) (same session.settings session.tally)

end Session

/-! ## One statement after the other -/

/-- Statements can be handed over in two lots. -/
theorem handOver_append (handle : Statement → σ → Except ε Unit × σ)
    (front back : List Statement) (state : σ) :
    handOver handle (front ++ back) state
      = match handOver handle front state with
        | (.error refusal, state) => (.error refusal, state)
        | (.ok (), state) => handOver handle back state := by
  induction front generalizing state with
  | nil => rfl
  | cons statement front ih =>
    rw [List.cons_append, handOver, handOver]
    rcases handle statement state with ⟨_ | _, state'⟩
    · rfl
    · exact ih state'

/-- What every statement leaves as it is, all of them do. -/
theorem handOver_keeps {motive : σ → Prop} {handle : Statement → σ → Except ε Unit × σ}
    (step : ∀ statement state, motive state → motive (handle statement state).2)
    (statements : List Statement) {state : σ} (before : motive state) :
    motive (handOver handle statements state).2 := by
  induction statements generalizing state with
  | nil => exact before
  | cons statement statements ih =>
    have here := step statement state before
    rw [handOver]
    generalize handle statement state = handled at here ⊢
    rcases handled with ⟨_ | _, state'⟩
    · exact here
    · exact ih here

theorem Session.handOver_settings (sink : Sink σ ε) (statements : List Statement)
    (session : Session σ) :
    (handOver (handle sink) statements session).2.settings = session.settings :=
  handOver_keeps (motive := fun later => later.settings = session.settings)
    (fun statement later same => (handle_settings sink statement later).trans same) statements rfl

end TableDump
