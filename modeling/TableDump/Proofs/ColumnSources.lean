import Mathlib
import TableDump.Proofs.Delivery
import TableDump.Proofs.FailedStatements
import TableDump.Proofs.Independence

/-!
# Where the columns come from does not matter

The columns of an insertion are those that it names, or those of a definition before. The
first are read as a list, strictly, and the second are picked out of the body of the
definition: the names that stand where an entry begins. Other entries may stand between
them, a key or a constraint, and any tokens behind the name of a column. Still both come to
the same (`Session.handle_knownColumns`): with the same columns from either source the same
tuples become the same rows, or are wrong in the same way.

What an insertion says is then the same but for the text of the statement, which faults
quote. So sessions are compared in what they tell their sinks and in how they end, up to
that quotation. The sink has seen one event more in one of them, that the table is created.
It must not hold that against the rows (`Sink.IgnoresTables`).
-/

namespace TableDump

open Grammar

variable {σ ε : Type}

/-! ## Definitions of tables -/

namespace Grammar

/-- **An entry in the body of a definition**, and the column that it declares: a name with
something behind it, or something else, like a key, that declares none. -/
inductive IsEntry : List Token → Option String → Prop where
  | column {name : String} {rest : List Token} (single : .delimiter .comma ∉ rest) :
      IsEntry (.identifier name :: rest) (some name)
  | other {token : Token} {rest : List Token} (unnamed : token.name? = none)
      (single : .delimiter .comma ∉ token :: rest) : IsEntry (token :: rest) none

/-- **Entries with a comma between any two of them**, and the columns that they declare. -/
inductive IsBody : List Token → List String → Prop where
  | last {entry : List Token} {name? : Option String} (here : IsEntry entry name?) :
      IsBody entry name?.toList
  | cons {entry body : List Token} {name? : Option String} {columns : List String}
      (here : IsEntry entry name?) (others : IsBody body columns) :
      IsBody (entry ++ .delimiter .comma :: body) (name?.toList ++ columns)

/-- `IF NOT EXISTS`, or nothing. -/
inductive IsCondition : List Token → Prop where
  | unconditional : IsCondition []
  | ifNotExists {word : String} (same : sameButCase word "IF" = true) :
      IsCondition [.identifier word, .keyword .NOT, .keyword .EXISTS]

/-- **The definition of a table**, with its columns. Anything may stand behind the body. -/
inductive IsDefinition : List Token → (table : String) → (columns : List String) → Prop where
  | intro {verb : Token} {table : String} {condition body rest : List Token}
      {columns : List String} (conditional : IsCondition condition)
      (entries : IsBody body columns) :
      IsDefinition (verb :: .keyword .TABLE :: (condition ++ .identifier table
        :: .group (.delimiter .leftParen :: (body ++ [.delimiter .rightParen])) :: rest))
        table columns

end Grammar

namespace TableDefinition

/-- Behind the beginning of an entry no name counts before the next comma. -/
theorem entryNames_append {front : List Token} (single : .delimiter .comma ∉ front)
    (rest : List Token) : entryNames false (front ++ rest) = entryNames false rest := by
  induction front with
  | nil => rfl
  | cons token front ih =>
    rw [List.mem_cons, not_or] at single
    have later : (token == .delimiter .comma) = false := beq_eq_false_iff_ne.2 (Ne.symm single.1)
    rw [List.cons_append, entryNames, later, ih single.2]
    cases token.name? <;> rfl

/-- **What an entry declares** is picked out of it. -/
theorem entryNames_entry {entry : List Token} {name? : Option String} (h : IsEntry entry name?)
    (rest : List Token) :
    entryNames true (entry ++ rest) = name?.toList ++ entryNames false rest := by
  cases h with
  | column single =>
    rw [List.cons_append, entryNames]
    dsimp only [Token.name?]
    rw [if_pos rfl]
    exact congrArg _ (entryNames_append single rest)
  | @other token front unnamed single =>
    rw [List.mem_cons, not_or] at single
    have later : (token == .delimiter .comma) = false := beq_eq_false_iff_ne.2 (Ne.symm single.1)
    rw [List.cons_append, entryNames, unnamed, later]
    exact entryNames_append single.2 rest

/-- **What a body declares** is picked out of it, up to the closing parenthesis. -/
theorem entryNames_body {body : List Token} {columns : List String} (h : IsBody body columns) :
    entryNames true (body ++ [.delimiter .rightParen]) = columns := by
  induction h with
  | last here =>
    rw [entryNames_entry here]
    exact List.append_nil _
  | @cons entry body name? columns here others ih =>
    rw [List.append_assoc, entryNames_entry here]
    exact congrArg _ ih

theorem skipCondition_append {condition : List Token} (h : IsCondition condition)
    (table : String) (body rest : List Token) :
    skipCondition (condition ++ .identifier table :: .group body :: rest)
      = .identifier table :: .group body :: rest := by
  cases h with
  | unconditional => rfl
  | ifNotExists same =>
    show skipCondition (.identifier _ :: .keyword .NOT :: .keyword .EXISTS :: _) = _
    rw [skipCondition, if_pos same]
    rfl

/-- **A definition is read as one.** -/
theorem ofStatement?_of_isDefinition {statement : Statement} {selection : Selection}
    {table : String} {columns : List String}
    (h : IsDefinition statement.tokens table columns)
    (chosen : selection.contains table = true) :
    ofStatement? statement selection = some { name := table, fields := columns } := by
  generalize tokens_eq : statement.tokens = tokens at h
  cases h with
  | intro conditional entries =>
    unfold ofStatement?
    rw [tokens_eq]
    dsimp only
    rw [skipCondition_append conditional]
    dsimp only
    rw [if_pos chosen, entryNames_body entries]

end TableDefinition

/-! ## Insertions that differ in where their columns come from -/

/-- A fault without the text of the statement. -/
def ShapeFault.unquoted : ShapeFault → ShapeFault
  | .statementTooShort _ => .statementTooShort ""
  | .missingInto _ => .missingInto ""
  | .expectedTableName found _ => .expectedTableName found ""
  | .missingColumnsOrValues _ => .missingColumnsOrValues ""
  | .missingValues _ => .missingValues ""
  | .missingTuple _ => .missingTuple ""
  | .unexpectedToken wanted found _ => .unexpectedToken wanted found ""
  | .malformedTuple tuple defect => .malformedTuple tuple defect
  | .arityMismatch table columns values => .arityMismatch table columns values
  | .duplicateColumn table column => .duplicateColumn table column

/-- **Two insertions that come to the same**: they have the same rows, and the same is wrong
behind them. -/
structure Insertion.Alike (insertion insertion' : Insertion) : Prop where
  table_eq : insertion.table = insertion'.table
  rows_eq : insertion.rows = insertion'.rows
  defect_eq : insertion.defect?.map ShapeFault.unquoted
    = insertion'.defect?.map ShapeFault.unquoted

/-- **Tuples are read alike in any statement**, but for its text. -/
theorem Insertion.readTuples_alike (statement statement' : Statement) (table : String)
    (columns? : Option (List String)) : ∀ (tokens : List Token) (before : List Row),
    (readTuples statement table columns? before tokens).1
        = (readTuples statement' table columns? before tokens).1
      ∧ (readTuples statement table columns? before tokens).2.map ShapeFault.unquoted
        = (readTuples statement' table columns? before tokens).2.map ShapeFault.unquoted
  | [], before => by
    simp only [readTuples, Option.map_some, ShapeFault.unquoted, and_self]
  | token :: rest, before => by
    by_cases group : ∃ tuple, token = .group tuple
    case neg =>
      rw [readTuples, readTuples]
      · simp only [Option.map_some, ShapeFault.unquoted, and_self]
      · exact fun tuple same => group ⟨tuple, same⟩
      · exact fun tuple same => group ⟨tuple, same⟩
    case pos =>
      obtain ⟨tuple, rfl⟩ := group
      rw [readTuples, readTuples]
      cases tupleRow table columns? tuple with
      | error fault => exact ⟨rfl, rfl⟩
      | ok row =>
        cases rest with
        | nil => exact ⟨rfl, rfl⟩
        | cons separator rest =>
          dsimp only
          split
          · exact readTuples_alike statement statement' table columns? rest (row :: before)
          · simp only [Option.map_some, ShapeFault.unquoted, and_self]

theorem Insertion.ofTuples_alike (statement statement' : Statement) (table : String)
    (columns? : Option (List String)) (tokens : List Token) :
    (ofTuples statement table columns? tokens).Alike
      (ofTuples statement' table columns? tokens) :=
  have read := readTuples_alike statement statement' table columns? tokens []
  ⟨rfl, read.1, read.2⟩

/-! ## What a sink makes of them -/

namespace Sink

/-- **A sink that treats rows alike** whether or not it was told before that a table is
created. -/
structure IgnoresTables (related : σ → σ → Prop) (sink : Sink σ ε) : Prop where
  onTable : ∀ {state state'} (table : String) (fields : List String), related state state' →
    (sink.onTable table fields state).1 = .ok () →
    related (sink.onTable table fields state).2 state'
  onRow : ∀ {state state'} (table : String) (row : Row), related state state' →
    (sink.onRow table row state).1 = (sink.onRow table row state').1
      ∧ related (sink.onRow table row state).2 (sink.onRow table row state').2

/-- A sink for rows alone does, also if it refuses some. -/
theorem ignoresTables_ofRows (ofFault : Fault → ε) (onRow : String → Row → σ → Except ε Unit × σ) :
    (ofRows ofFault onRow).IgnoresTables fun state state' => state = state' where
  onTable _ _ same _ := same
  onRow _ _ same := same ▸ ⟨rfl, rfl⟩

variable {sink : Sink σ ε}

/-- **In related states the same rows are told**, and they come to the same. -/
theorem IgnoresTables.deliveries_eq {related : σ → σ → Prop} (h : sink.IgnoresTables related)
    (table : String) (rows : List Row) {state state' : σ} (start : related state state') :
    sink.deliveries table rows state = sink.deliveries table rows state'
      ∧ (sink.takeRows table rows state).1 = (sink.takeRows table rows state').1 := by
  induction rows generalizing state state' with
  | nil => exact ⟨rfl, rfl⟩
  | cons row rows ih =>
    obtain ⟨agree, after⟩ := h.onRow table row start
    rw [takeRows, takeRows, deliveries, deliveries]
    generalize sink.onRow table row state = asked at agree after ⊢
    generalize sink.onRow table row state' = asked' at agree after ⊢
    obtain ⟨outcome, later⟩ := asked
    obtain ⟨outcome', later'⟩ := asked'
    obtain rfl : outcome = outcome' := agree
    cases outcome with
    | error refusal => exact ⟨rfl, rfl⟩
    | ok _ =>
      obtain ⟨told, outcomes⟩ := ih after
      exact ⟨congrArg _ told, outcomes⟩

/-- **Two ends that are the same** but for the text of a statement: both are a success, or
the sink has refused the same, or the same is wrong. -/
inductive EndsAlike (sink : Sink σ ε) : Except ε Unit → Except ε Unit → Prop where
  | same (outcome : Except ε Unit) : EndsAlike sink outcome outcome
  | faults {fault fault' : ShapeFault} (same : fault.unquoted = fault'.unquoted) :
      EndsAlike sink (.error (sink.ofFault (.shape fault))) (.error (sink.ofFault (.shape fault')))

/-- How an insertion ends: the sink refuses a row, or something is wrong behind the rows,
or neither. -/
def ending (sink : Sink σ ε) (insertion : Insertion) (state : σ) : Except ε Unit :=
  match (sink.takeRows insertion.table insertion.rows state).1 with
  | .error refusal => .error refusal
  | .ok () =>
    match insertion.defect? with
    | some fault => .error (sink.ofFault (.shape fault))
    | none => .ok ()

/-- **Insertions that come to the same** end alike in related states. -/
theorem IgnoresTables.endsAlike {related : σ → σ → Prop} (h : sink.IgnoresTables related)
    {insertion insertion' : Insertion} (alike : insertion.Alike insertion') {state state' : σ}
    (start : related state state') :
    sink.EndsAlike (sink.ending insertion state) (sink.ending insertion' state') := by
  obtain ⟨table, rows, defect?⟩ := insertion
  obtain ⟨table', rows', defect?'⟩ := insertion'
  obtain ⟨rfl, rfl, same⟩ := alike
  unfold ending
  dsimp only at same ⊢
  rw [(h.deliveries_eq table rows start).2]
  cases (sink.takeRows table rows state').1 with
  | error refusal => exact .same _
  | ok _ =>
    cases defect? with
    | none =>
      cases defect?' with
      | none => exact .same _
      | some fault' => exact absurd same nofun
    | some fault =>
      cases defect?' with
      | none => exact absurd same nofun
      | some fault' => exact .faults (Option.some.inj same)

end Sink

/-! ## Sessions -/

namespace Session

variable (sink : Sink σ ε) {session : Session σ} {statement : Statement} {table : String}
  {columns : List String}

/-- **A definition that the sink accepts** is known afterwards, and the sink has been told of
the table. -/
theorem handle_isDefinition (command : statement.command = .create)
    (defines : IsDefinition statement.tokens table columns)
    (chosen : session.selection.contains table = true) (nonempty : columns ≠ [])
    (distinct : columns.Nodup)
    (accepted : (sink.onTable (lowerCase table) columns session.sinkState).1 = .ok ()) :
    let created := session.handle sink statement
    created.1 = .ok ()
      ∧ created.2.selection = session.selection
      ∧ created.2.catalog.fields? table = some columns
      ∧ created.2.sinkState = (sink.onTable (lowerCase table) columns session.sinkState).2
      ∧ ∀ log, (session.logging log).handle sink.logging statement
          = (.ok (), created.2.logging (log ++ [⟨.table (lowerCase table) columns, true⟩])) := by
  have found := TableDefinition.ofStatement?_of_isDefinition defines chosen
  have once : ensureDistinct (lowerCase table) columns = .ok () :=
    ensureDistinct_eq_ok_iff.2 distinct
  have some : columns.isEmpty = false := List.isEmpty_eq_false_iff.2 nonempty
  have known : (session.catalog.define (lowerCase table) columns).fields? table
      = .some columns := by
    rw [Catalog.fields?_define, if_pos (lowerCase_lowerCase table).symm]
  unfold handle carryOut createTable
  dsimp only [logging]
  rw [command]
  dsimp only
  rw [found]
  dsimp only
  rw [once]
  dsimp only
  rcases taken : sink.onTable (lowerCase table) columns session.sinkState with ⟨outcome, state⟩
  obtain rfl : outcome = .ok () := (congrArg Prod.fst taken).symm.trans accepted
  dsimp only
  rw [some]
  refine ⟨rfl, rfl, known, rfl, fun log => ?_⟩
  rw [sink.onTable_logging, taken]
  rfl

/-- **An insertion** ends as its rows and what is wrong behind them say, and the sink is told
the rows. -/
theorem handle_asked {insertion : Insertion} (command : statement.command = .insert)
    (asked : Insertion.ofStatement statement session.selection session.catalog
      = .ok (some insertion)) :
    let handled := session.handle sink statement
    handled.1 = sink.ending insertion session.sinkState
      ∧ ∀ log, (session.logging log).handle sink.logging statement
          = (handled.1, handled.2.logging
            (log ++ sink.deliveries insertion.table insertion.rows session.sinkState)) := by
  have logged := sink.takeRows_logging insertion.table insertion.rows session.sinkState
  unfold handle carryOut insertRows Sink.takeInsertion Sink.ending
  dsimp only [logging]
  rw [command]
  dsimp only
  rw [asked]
  dsimp only
  generalize sink.takeRows insertion.table insertion.rows session.sinkState = taken at logged ⊢
  obtain ⟨refusal | _, state⟩ := taken
  · exact ⟨rfl, fun log => by rw [logged]⟩
  · cases insertion.defect? with
    | none => exact ⟨rfl, fun log => by rw [logged]⟩
    | some fault =>
      refine ⟨rfl, fun log => ?_⟩
      rw [logged]
      rfl

variable {sink}

/-- **Columns from a definition are as good as columns in the insertion.** Let a sink ignore
tables, and accept the table of a definition whose columns are distinct. An insertion behind
it that names no columns tells the sink the same rows, of the same table, as one of the same
tuples that names these columns, in another session which may know nothing of the table. Both
end alike: they succeed, or the sink refuses the same, or the same is wrong with the
tuples. -/
theorem handle_knownColumns {related : σ → σ → Prop} (ignores : sink.IgnoresTables related)
    {first second : Session σ} (start : related first.sinkState second.sinkState)
    (chosen : first.selection.contains table = true)
    (chosen' : second.selection.contains table = true) {create known named : Statement}
    (creates : create.command = .create) (defines : IsDefinition create.tokens table columns)
    (nonempty : columns ≠ []) (distinct : columns.Nodup)
    (accepted : (sink.onTable (lowerCase table) columns first.sinkState).1 = .ok ())
    {verb verb' : Token} {tuples : List Token} (tuple : tuples ≠ [])
    (inserts : known.command = .insert)
    (known_eq : known.tokens
      = verb :: .keyword .INTO :: .identifier table :: .keyword .VALUES :: tuples)
    (inserts' : named.command = .insert)
    (named_eq : named.tokens
      = verb' :: .keyword .INTO :: .identifier table :: .parenthesized .identifier columns
        :: .keyword .VALUES :: tuples) :
    let created := first.handle sink create
    let onKnown := created.2.handle sink known
    let onNamed := second.handle sink named
    (created.1 = .ok ()
        ∧ ∀ log, (first.logging log).handle sink.logging create
          = (.ok (), created.2.logging (log ++ [⟨.table (lowerCase table) columns, true⟩])))
      ∧ sink.EndsAlike onKnown.1 onNamed.1
      ∧ ∃ told, (∀ delivery ∈ told, ∃ row, delivery.event = .row table row)
        ∧ (∀ log, (created.2.logging log).handle sink.logging known
            = (onKnown.1, onKnown.2.logging (log ++ told)))
        ∧ ∀ log, (second.logging log).handle sink.logging named
            = (onNamed.1, onNamed.2.logging (log ++ told)) := by
  intro created onKnown onNamed
  obtain ⟨succeeds, selection_eq, fields_eq, state_eq, told_table⟩ :=
    handle_isDefinition sink creates defines chosen nonempty distinct accepted
  have listed : Parenthesized IsName (.parenthesized .identifier columns) columns :=
    .intro (.of_separated nonempty fun column _ => .intro column)
  have asked : Insertion.ofStatement known created.2.selection created.2.catalog
      = .ok (some (.ofTuples known table (some columns) tuples)) := by
    have source : Columns created.2.catalog table [] (some columns) := fields_eq ▸ .known
    rw [Insertion.ofStatement_of_columns known_eq source tuple, selection_eq, if_pos chosen]
  have asked' : Insertion.ofStatement named second.selection second.catalog
      = .ok (some (.ofTuples named table (some columns) tuples)) := by
    have source : Columns second.catalog table [.parenthesized .identifier columns]
        (some columns) := .named listed distinct
    rw [Insertion.ofStatement_of_columns named_eq source tuple, if_pos chosen']
  have alike := Insertion.ofTuples_alike known named table (some columns) tuples
  have behind : related created.2.sinkState second.sinkState :=
    state_eq ▸ ignores.onTable _ _ start accepted
  obtain ⟨ends, told⟩ := handle_asked sink inserts asked
  obtain ⟨ends', told'⟩ := handle_asked sink inserts' asked'
  refine ⟨⟨succeeds, told_table⟩, ?_, _, ?_, told, ?_⟩
  · rw [ends, ends']
    exact ignores.endsAlike alike behind
  · intro delivery mem
    obtain ⟨row, -, event_eq⟩ := sink.exists_row_of_mem_deliveries _ mem
    exact ⟨row, event_eq⟩
  · intro log
    rw [told', alike.rows_eq, alike.table_eq, (ignores.deliveries_eq _ _ behind).1]

/-- The body of a definition that has a key in front of its two columns. -/
def keyFirst : List Token :=
  [Token.keyword .PRIMARY, Token.keyword .KEY,
      Token.group [.delimiter .leftParen, .identifier "a", .delimiter .rightParen]]
    ++ Token.delimiter .comma :: ([Token.identifier "a", Token.keyword .INT]
      ++ Token.delimiter .comma
        :: [Token.identifier "b", Token.keyword .NOT, Token.keyword .NULL])

/-- Two tuples for these columns. -/
def twoTuples : List Token :=
  [.group [.delimiter .leftParen, .integer 1, .delimiter .comma, .text "x",
      .delimiter .rightParen],
    .delimiter .comma,
    .group [.delimiter .leftParen, .integer 2, .delimiter .comma, .text "y",
      .delimiter .rightParen]]

/-- A sink that takes one row refuses the second one of either insertion. -/
theorem handle_knownColumns_keyFirst :
    let session : Session Nat := { selection := .all, sinkState := 0 }
    let create : Statement := ⟨.keyword .CREATE :: .keyword .TABLE
      :: ([Token.identifier "if", Token.keyword .NOT, Token.keyword .EXISTS]
        ++ Token.identifier "t"
          :: Token.group (.delimiter .leftParen :: (keyFirst ++ [Token.delimiter .rightParen]))
          :: [Token.identifier "engine"])⟩
    let known : Statement := ⟨.keyword .INSERT :: .keyword .INTO :: .identifier "t"
      :: .keyword .VALUES :: twoTuples⟩
    let named : Statement := ⟨.keyword .INSERT :: .keyword .INTO :: .identifier "t"
      :: .parenthesized .identifier ["a", "b"] :: .keyword .VALUES :: twoTuples⟩
    (oneRow.IgnoresTables (fun state state' => state = state')
        ∧ session.selection.contains "t" = true ∧ create.command = .create
        ∧ IsDefinition create.tokens "t" ["a", "b"]
        ∧ ["a", "b"] ≠ [] ∧ ["a", "b"].Nodup
        ∧ (oneRow.onTable (lowerCase "t") ["a", "b"] session.sinkState).1 = .ok ()
        ∧ twoTuples ≠ [] ∧ known.command = .insert ∧ named.command = .insert)
      ∧ (session.handle oneRow create).1 = .ok ()
      ∧ oneRow.EndsAlike ((session.handle oneRow create).2.handle oneRow known).1
          (session.handle oneRow named).1
      ∧ (session.handle oneRow named).1 = .error "full" := by
  intro session create known named
  have ignores : oneRow.IgnoresTables fun state state' => state = state' :=
    Sink.ignoresTables_ofRows _ _
  have creates : create.command = .create := by decide +kernel
  have entries : IsBody keyFirst ["a", "b"] :=
    .cons (.other rfl (by decide)) (.cons (.column (by decide)) (.last (.column (by decide))))
  have defines : IsDefinition create.tokens "t" ["a", "b"] :=
    .intro (.ifNotExists (by decide +kernel)) entries
  have inserts : known.command = .insert := by decide +kernel
  have inserts' : named.command = .insert := by decide +kernel
  have start : session.sinkState = session.sinkState := rfl
  have chosen : session.selection.contains "t" = true := rfl
  have nonempty : ["a", "b"] ≠ [] := List.cons_ne_nil _ _
  have distinct : ["a", "b"].Nodup := by decide
  have accepted : (oneRow.onTable (lowerCase "t") ["a", "b"] session.sinkState).1 = .ok () := rfl
  have tuple : twoTuples ≠ [] := List.cons_ne_nil _ _
  obtain ⟨⟨created, -⟩, ends, -⟩ := handle_knownColumns ignores start chosen chosen creates defines
    nonempty distinct accepted tuple inserts rfl inserts' rfl
  have refused : (session.handle oneRow named).1 = .error "full" := by decide +kernel
  exact ⟨⟨ignores, chosen, creates, defines, nonempty, distinct, accepted, tuple, inserts, inserts'⟩,
    created, ends, refused⟩

end Session

end TableDump
