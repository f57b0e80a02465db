import Mathlib
import TableDump.Proofs.Events
import TableDump.Proofs.Keys

/-!
# Statements that fail

A statement that fails has changed nothing of what a session knows and counts, but for the
number of statements. What its sink was told before is not taken back; so the question is
what that can be (`Session.Fails`).

Of a definition the sink has accepted nothing: there is one event, and if it is refused
the definition has failed. Of an insertion it has accepted a row for each tuple in front of
the first one that is wrong, or whose row it refused. What is wrong is a matter of the
tokens alone (`Grammar.Offends`): they are a list of tuples up to a token that cannot stand
there.

Either way there is one error. It is the sink's own if the sink has refused something, and
else the fault of the statement, made into an error of the sink's kind once.
-/

namespace TableDump

open Grammar

variable {σ ε : Type}

/-! ## The first thing that is wrong with some tuples -/

/-- **Tuples up to the first thing that is wrong**, the rows that stand in front of it, and
the fault that it is. -/
inductive Grammar.Offends (statement : Statement) (table : String)
    (columns? : Option (List String)) : List Token → List Row → ShapeFault → Prop where
  /-- There should be a tuple where the statement ends. -/
  | noTuple : Offends statement table columns? [] [] (.missingTuple statement.quote)
  /-- There is something else. -/
  | notTuple {token : Token} {rest : List Token} (other : ¬ ∃ tuple, token = .group tuple) :
      Offends statement table columns? (token :: rest) []
        (.unexpectedToken .tuple token.render statement.quote)
  /-- There is a group, but not one of values. -/
  | malformed {tuple : List Token} {rest : List Token} {defect : TupleDefect}
      (bad : ∀ values, ¬ Parenthesized IsCell (.group tuple) values) :
      Offends statement table columns? (.group tuple :: rest) []
        (.malformedTuple (Token.renderAll tuple) defect)
  /-- There are more values than columns, or fewer. -/
  | arity {tuple : List Token} {rest : List Token} {columns : List String} {values : List Cell}
      (known : columns? = some columns) (listed : Parenthesized IsCell (.group tuple) values)
      (different : columns.length ≠ values.length) :
      Offends statement table columns? (.group tuple :: rest) []
        (.arityMismatch table columns.length values.length)
  /-- Something other than a comma follows a tuple. -/
  | noComma {token separator : Token} {rest : List Token} {row : Row}
      (here : IsTuple columns? token row) (other : separator ≠ .delimiter .comma) :
      Offends statement table columns? (token :: separator :: rest) [row]
        (.unexpectedToken .separator separator.render statement.quote)
  | cons {token : Token} {tokens : List Token} {row : Row} {rows : List Row} {fault : ShapeFault}
      (here : IsTuple columns? token row)
      (further : Offends statement table columns? tokens rows fault) :
      Offends statement table columns? (token :: .delimiter .comma :: tokens) (row :: rows) fault

/-- **A group that makes no row** is no tuple of values, or one of the wrong length. -/
theorem offends_of_tupleRow {statement : Statement} {table : String}
    {columns? : Option (List String)} {tuple : List Token} {fault : ShapeFault}
    (failed : tupleRow table columns? tuple = .error fault) (rest : List Token) :
    Offends statement table columns? (.group tuple :: rest) [] fault := by
  unfold tupleRow at failed
  cases found : listed Cell.ofToken? tuple with
  | error fault' =>
    rw [found] at failed
    obtain rfl : fault' = fault := Except.error.inj failed
    have bad : ∀ values, ¬ Parenthesized IsCell (.group tuple) values := fun values listed =>
      absurd (found.symm.trans (listed_cells_eq_ok_iff.2 listed)) nofun
    unfold listed at found
    cases items : tupleItems Cell.ofToken? tuple with
    | ok values =>
      rw [items] at found
      exact absurd found nofun
    | error defect =>
      rw [items] at found
      obtain rfl := Except.error.inj found
      exact .malformed bad
  | ok values =>
    rw [found] at failed
    change rowOf table columns? values = .error fault at failed
    unfold rowOf at failed
    split at failed
    case h_1 => exact absurd failed nofun
    case h_2 columns =>
      split at failed
      case isTrue => exact absurd failed nofun
      case isFalse different =>
        obtain rfl := Except.error.inj failed
        exact .arity rfl (listed_cells_eq_ok_iff.1 found) different

/-- **The reading of tuples stops at the first thing that is wrong.** -/
theorem Insertion.offends_of_readTuples {statement : Statement} {table : String}
    {columns? : Option (List String)} {rows : List Row} {fault : ShapeFault} :
    ∀ {tokens : List Token} {before : List Row},
      readTuples statement table columns? before tokens = (rows, some fault) →
      ∃ more, rows = before.reverse ++ more ∧ Offends statement table columns? tokens more fault
  | [], before, read => by
    rw [readTuples] at read
    obtain ⟨rfl, ⟨⟩⟩ := Prod.mk.inj read
    exact ⟨[], (List.append_nil _).symm, .noTuple⟩
  | token :: rest, before, read => by
    by_cases group : ∃ tuple, token = .group tuple
    case neg =>
      rw [readTuples] at read
      · obtain ⟨rfl, ⟨⟩⟩ := Prod.mk.inj read
        exact ⟨[], (List.append_nil _).symm, .notTuple group⟩
      · exact fun tuple same => group ⟨tuple, same⟩
    case pos =>
      obtain ⟨tuple, rfl⟩ := group
      rw [readTuples] at read
      cases found : tupleRow table columns? tuple with
      | error fault' =>
        rw [found] at read
        obtain ⟨rfl, ⟨⟩⟩ := Prod.mk.inj read
        exact ⟨[], (List.append_nil _).symm, offends_of_tupleRow found rest⟩
      | ok row =>
        have here : IsTuple columns? (.group tuple) row := (tupleRow_eq_ok_iff table).1 found
        rw [found] at read
        cases rest with
        | nil => cases (Prod.mk.inj read).2
        | cons separator rest =>
          dsimp only at read
          by_cases comma : separator = .delimiter .comma
          · rw [if_pos comma] at read
            obtain ⟨more, rfl, further⟩ := offends_of_readTuples read
            refine ⟨row :: more, ?_, comma ▸ .cons here further⟩
            rw [List.reverse_cons, List.append_assoc]
            rfl
          · rw [if_neg comma] at read
            obtain ⟨rfl, ⟨⟩⟩ := Prod.mk.inj read
            exact ⟨[row], List.reverse_cons, .noComma here comma⟩

/-- What an insertion says to be wrong is the first thing that is, and its rows stand in
front of it. -/
theorem Insertion.offends_of_defect {statement : Statement} {table : String}
    {columns? : Option (List String)} {tuples : List Token} {fault : ShapeFault}
    (wrong : (ofTuples statement table columns? tuples).defect? = some fault) :
    Offends statement table columns? tuples (ofTuples statement table columns? tuples).rows
      fault := by
  obtain ⟨more, rows_eq, offends⟩ := offends_of_readTuples (Prod.ext rfl wrong)
  rwa [show (ofTuples statement table columns? tuples).rows = more from rows_eq]

/-- The first few rows of an insertion are those of its first tuples. -/
theorem Insertion.leading_of_prefix {statement : Statement} {table : String}
    {columns? : Option (List String)} {tuples : List Token} {few : List Row}
    (first : few <+: (ofTuples statement table columns? tuples).rows) :
    LeadingItems (IsTuple columns?) tuples few := by
  obtain ⟨more, rows_eq, leading⟩ := exists_readTuples statement table columns? tuples []
  rw [show (ofTuples statement table columns? tuples).rows = more from rows_eq] at first
  exact leading.first_few first

/-! ## Insertions -/

namespace Sink

/-- **How an insertion fails**: the error, what the sink has been told, and what state it is
in then. -/
inductive InsertionFails (sink : Sink σ ε) (statement : Statement) (selection : Selection)
    (catalog : Catalog) (state : σ) : (error : ε) → (told : List Delivery) → σ → Prop where
  /-- Something is wrong in front of the tuples, or there is none. -/
  | misshapen {fault : ShapeFault}
      (failed : Insertion.ofStatement statement selection catalog = .error fault)
      (empty : ∀ {verb table list tuples columns?},
        statement.tokens
          = verb :: .keyword .INTO :: .identifier table :: (list ++ .keyword .VALUES :: tuples) →
        Columns catalog table list columns? → tuples = []) :
      InsertionFails sink statement selection catalog state (sink.ofFault (.shape fault)) [] state
  /-- Something is wrong with the tuples. The rows in front of it are accepted. -/
  | offending {verb : Token} {table : String} {list tuples : List Token}
      {columns? : Option (List String)} {rows : List Row} {fault : ShapeFault} {state' : σ}
      (tokens : statement.tokens
        = verb :: .keyword .INTO :: .identifier table :: (list ++ .keyword .VALUES :: tuples))
      (columns : Columns catalog table list columns?)
      (offends : Offends statement table columns? tuples rows fault)
      (taken : sink.takeRows table rows state = (.ok (), state')) :
      InsertionFails sink statement selection catalog state (sink.ofFault (.shape fault))
        (acceptedRows table rows) state'
  /-- A row is refused. The rows in front of it are accepted, and no other is handed over. -/
  | refused {verb : Token} {table : String} {list tuples : List Token}
      {columns? : Option (List String)} {rows : List Row} {row : Row} {refusal : ε}
      {mid state' : σ}
      (tokens : statement.tokens
        = verb :: .keyword .INTO :: .identifier table :: (list ++ .keyword .VALUES :: tuples))
      (columns : Columns catalog table list columns?)
      (leading : LeadingItems (IsTuple columns?) tuples (rows ++ [row]))
      (taken : sink.takeRows table rows state = (.ok (), mid))
      (refused : sink.onRow table row mid = (.error refusal, state')) :
      InsertionFails sink statement selection catalog state refusal
        (acceptedRows table rows ++ [⟨.row table row, false⟩]) state'

variable (sink : Sink σ ε)

/-- **An insertion that fails** fails in one of these ways, and a log has what the sink has
been told. -/
theorem takeInsertion_failed {statement : Statement} {selection : Selection} {catalog : Catalog}
    {state state' : σ} {error : ε}
    (failed : sink.takeInsertion statement selection catalog state = (.error error, state')) :
    ∃ told, sink.InsertionFails statement selection catalog state error told state'
      ∧ ∀ log, sink.logging.takeInsertion statement selection catalog (state, log)
          = (.error error, state', log ++ told) := by
  unfold takeInsertion at failed ⊢
  cases found : Insertion.ofStatement statement selection catalog with
  | error fault =>
    rw [found] at failed
    obtain ⟨⟨⟩, rfl⟩ := Prod.mk.inj failed
    refine ⟨[], .misshapen found fun tokens columns => ?_, fun log => ?_⟩
    · by_contra tuple
      exact absurd (found.symm.trans (Insertion.ofStatement_of_columns tokens columns tuple)) nofun
    · rw [List.append_nil]
      rfl
  | ok asked =>
    rw [found] at failed
    cases asked with
    | none => exact absurd (Prod.mk.inj failed).1 nofun
    | some insertion =>
      obtain ⟨verb, table, list, tuples, columns?, -, columns, tokens, rfl⟩ :=
        Insertion.exists_of_ofStatement found
      have leads := @Insertion.leading_of_prefix statement table columns? tuples
      have offends := @Insertion.offends_of_defect statement table columns? tuples
      have named : (Insertion.ofTuples statement table columns? tuples).table = table := rfl
      dsimp only at failed ⊢
      rw [named] at failed ⊢
      generalize Insertion.ofTuples statement table columns? tuples = insertion
        at failed leads offends ⊢
      rcases taken : sink.takeRows table insertion.rows state with ⟨refusal | _, later⟩
      · rw [taken] at failed
        obtain ⟨⟨⟩, rfl⟩ := Prod.mk.inj failed
        obtain ⟨front, row, back, mid, rows_eq, accepted, refused⟩ :=
          sink.exists_refused table taken
        refine ⟨_, .refused tokens columns (leads ?_) accepted refused, fun log => ?_⟩
        · rw [rows_eq]
          exact ⟨back, List.append_assoc _ _ _⟩
        · rw [sink.takeRows_logging, taken, rows_eq,
            sink.deliveries_of_refused table accepted refused back]
      · rw [taken] at failed
        cases wrong : insertion.defect? with
        | none =>
          rw [wrong] at failed
          exact absurd (Prod.mk.inj failed).1 nofun
        | some fault =>
          rw [wrong] at failed
          obtain ⟨⟨⟩, rfl⟩ := Prod.mk.inj failed
          refine ⟨_, .offending tokens columns (offends wrong) taken, fun log => ?_⟩
          rw [sink.takeRows_logging_ok table log taken]
          rfl

end Sink

/-! ## Definitions -/

/-- **The first column that is repeated** stands behind columns that are not. -/
theorem exists_of_firstRepeated? {items : List String} {column : String} :
    ∀ {seen : List String}, firstRepeated? seen items = some column →
      ∃ front back, items = front ++ column :: back ∧ (column ∈ front ∨ column ∈ seen)
        ∧ front.Nodup ∧ ∀ item ∈ front, item ∉ seen := by
  induction items with
  | nil =>
    intro seen found
    rw [firstRepeated?] at found
    cases found
  | cons item items ih =>
    intro seen found
    rw [firstRepeated?] at found
    split at found
    case isTrue again =>
      obtain rfl := Option.some.inj found
      exact ⟨[], items, rfl, .inr (List.contains_iff_mem.1 again), List.nodup_nil,
        fun _ mem => absurd mem List.not_mem_nil⟩
    case isFalse fresh =>
      obtain ⟨front, back, rfl, again, distinct, apart⟩ := ih found
      refine ⟨item :: front, back, rfl, ?_, ?_, ?_⟩
      · rcases again with mem | mem
        · exact .inl (List.mem_cons_of_mem item mem)
        · rcases List.mem_cons.1 mem with rfl | mem
          · exact .inl List.mem_cons_self
          · exact .inr mem
      · exact List.nodup_cons.2 ⟨fun mem => apart item mem List.mem_cons_self, distinct⟩
      · rintro other (_ | ⟨_, mem⟩)
        · exact fun mem => fresh (List.contains_iff_mem.2 mem)
        · exact fun mem' => apart other mem (List.mem_cons_of_mem item mem')

namespace Session

/-- **How a statement fails**: the error, what the sink has been told, and what state it is
in then. -/
inductive Fails (sink : Sink σ ε) (session : Session σ) (statement : Statement) :
    (error : ε) → (told : List Delivery) → σ → Prop where
  /-- A definition repeats a column. -/
  | repeated {definition : TableDefinition} {front back : List String} {column : String}
      (command : statement.command = .create)
      (defines : TableDefinition.ofStatement? statement session.selection = some definition)
      (fields : definition.fields = front ++ column :: back) (again : column ∈ front)
      (distinct : front.Nodup) :
      Fails sink session statement
        (sink.ofFault (.shape (.duplicateColumn (lowerCase definition.name) column))) []
        session.sinkState
  /-- The sink refuses the table. -/
  | refused {definition : TableDefinition} {refusal : ε} {state' : σ}
      (command : statement.command = .create)
      (defines : TableDefinition.ofStatement? statement session.selection = some definition)
      (distinct : definition.fields.Nodup)
      (refused : sink.onTable (lowerCase definition.name) definition.fields session.sinkState
        = (.error refusal, state')) :
      Fails sink session statement refusal
        [⟨.table (lowerCase definition.name) definition.fields, false⟩] state'
  /-- An insertion fails. -/
  | insertion {error : ε} {told : List Delivery} {state' : σ}
      (command : statement.command = .insert)
      (fails : sink.InsertionFails statement session.selection session.catalog session.sinkState
        error told state') :
      Fails sink session statement error told state'

/-- What has been counted does not matter. -/
theorem Fails.of_counted {sink : Sink σ ε} {session : Session σ} {statement : Statement}
    {tally : Tally} {error : ε} {told : List Delivery} {state' : σ}
    (h : Fails sink { session with tally } statement error told state') :
    session.Fails sink statement error told state' := by
  cases h with
  | repeated command defines fields again distinct =>
    exact .repeated command defines fields again distinct
  | refused command defines distinct refused => exact .refused command defines distinct refused
  | insertion command fails => exact .insertion command fails

variable (sink : Sink σ ε) {statement : Statement} {session session' : Session σ} {error : ε}

theorem createTable_failed {definition : TableDefinition} (command : statement.command = .create)
    (failed : session.createTable sink definition = (.error error, session'))
    (defines : TableDefinition.ofStatement? statement session.selection = some definition) :
    session' = { session with sinkState := session'.sinkState }
      ∧ ∃ told, session.Fails sink statement error told session'.sinkState
        ∧ ∀ log, (session.logging log).createTable sink.logging definition
            = (.error error, session'.logging (log ++ told)) := by
  unfold createTable at failed ⊢
  dsimp only at failed ⊢
  cases distinct : ensureDistinct (lowerCase definition.name) definition.fields with
  | error fault =>
    rw [distinct] at failed
    obtain ⟨⟨⟩, rfl⟩ := Prod.mk.inj failed
    unfold ensureDistinct at distinct
    split at distinct
    case h_2 => exact absurd distinct nofun
    case h_1 column found =>
      obtain rfl := Except.error.inj distinct
      obtain ⟨front, back, fields, again, nodup, -⟩ := exists_of_firstRepeated? found
      refine ⟨rfl, [], .repeated command defines fields
        (again.resolve_right List.not_mem_nil) nodup, fun log => ?_⟩
      rw [List.append_nil]
      rfl
  | ok _ =>
    rw [distinct] at failed
    rcases taken : sink.onTable (lowerCase definition.name) definition.fields session.sinkState
      with ⟨refusal | _, state⟩
    · rw [taken] at failed
      obtain ⟨⟨⟩, rfl⟩ := Prod.mk.inj failed
      refine ⟨rfl, _, .refused command defines (ensureDistinct_eq_ok_iff.1 distinct) taken,
        fun log => ?_⟩
      dsimp only [logging]
      rw [sink.onTable_logging, taken]
      rfl
    · rw [taken] at failed
      dsimp only at failed
      split at failed <;> exact absurd (Prod.mk.inj failed).1 nofun

theorem insertRows_failed (command : statement.command = .insert)
    (failed : session.insertRows sink statement = (.error error, session')) :
    session' = { session with sinkState := session'.sinkState }
      ∧ ∃ told, session.Fails sink statement error told session'.sinkState
        ∧ ∀ log, (session.logging log).insertRows sink.logging statement
            = (.error error, session'.logging (log ++ told)) := by
  unfold insertRows at failed ⊢
  rcases taken : sink.takeInsertion statement session.selection session.catalog session.sinkState
    with ⟨error' | _ | rows, state⟩
  · rw [taken] at failed
    obtain ⟨⟨⟩, rfl⟩ := Prod.mk.inj failed
    obtain ⟨told, fails, logged⟩ := sink.takeInsertion_failed taken
    refine ⟨rfl, told, .insertion command fails, fun log => ?_⟩
    dsimp only [logging]
    rw [logged]
  · rw [taken] at failed
    exact absurd (Prod.mk.inj failed).1 nofun
  · rw [taken] at failed
    exact absurd (Prod.mk.inj failed).1 nofun

/-- **A statement that fails leaves a session as it was**, but for the number of statements.
The sink has been told what belongs to the way in which the statement fails, and nothing
else: of a definition nothing that it has accepted; of an insertion the rows of the tuples in
front of the one that is wrong or whose row is refused, in order, all of them accepted, and
behind them the refused row if there is one. The error is the sink's own if it has refused
something, and else the fault, converted once. -/
theorem handle_failed
    (failed : session.handle sink statement = (.error error, session')) :
    session' = { session with
        tally := { session.tally with statements := session.tally.statements + 1 }
        sinkState := session'.sinkState }
      ∧ ∃ told, session.Fails sink statement error told session'.sinkState
        ∧ ∀ log, (session.logging log).handle sink.logging statement
            = (.error error, session'.logging (log ++ told)) := by
  unfold handle carryOut at failed ⊢
  cases command : statement.command with
  | other =>
    rw [command] at failed
    exact absurd (Prod.mk.inj failed).1 nofun
  | insert =>
    rw [command] at failed
    obtain ⟨same, told, fails, logged⟩ := insertRows_failed sink command failed
    exact ⟨same, told, fails.of_counted, logged⟩
  | create =>
    rw [command] at failed
    dsimp only at failed ⊢
    cases defines : TableDefinition.ofStatement? statement session.selection with
    | none =>
      rw [defines] at failed
      exact absurd (Prod.mk.inj failed).1 nofun
    | some definition =>
      rw [defines] at failed
      dsimp only at failed
      obtain ⟨same, told, fails, logged⟩ := createTable_failed sink command failed defines
      refine ⟨same, told, fails.of_counted, fun log => ?_⟩
      dsimp only [logging]
      rw [defines]
      exact logged log

/-- A sink that has room for one row. -/
def oneRow : Sink Nat String :=
  .ofRows Fault.message fun _ _ taken => if taken = 0 then (.ok (), 1) else (.error "full", taken)

/-- The second of three tuples is one too many, and the third is no tuple at all. -/
theorem handle_failed_full :
    let session : Session Nat := { selection := .all, sinkState := 0 }
    let statement : Statement := ⟨[.keyword .INSERT, .keyword .INTO, .identifier "t",
      .keyword .VALUES, .group [.delimiter .leftParen, .integer 1, .delimiter .rightParen],
      .delimiter .comma, .group [.delimiter .leftParen, .integer 2, .delimiter .rightParen],
      .delimiter .comma, .integer 3]⟩
    (session.handle oneRow statement).1 = .error "full"
      ∧ (session.handle oneRow statement).2.tally = { statements := 1 }
      ∧ ∃ told, session.Fails oneRow statement "full" told
          (session.handle oneRow statement).2.sinkState := by
  intro session statement
  have failed : (session.handle oneRow statement).1 = .error "full" := by decide +kernel
  obtain ⟨same, told, fails, -⟩ := handle_failed oneRow (Prod.ext failed rfl)
  exact ⟨failed, congrArg Session.tally same, told, fails⟩

end Session

end TableDump
