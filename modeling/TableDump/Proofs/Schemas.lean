import Mathlib
import TableDump.Proofs.Insertion
import TableDump.Proofs.LowerCase
import TableDump.Proofs.SameReading

/-!
# What a session knows of the tables

A session learns the columns of a table from its definition, and only when the
sink has accepted the definition. So what it knows is told by what the sink has
accepted: of each table the columns in the newest definition, and nothing if
these are none (`Session.catalog_after`). There may be anything in between –
statements that fail, dumps that cannot be read to the end, definitions that
the sink refuses.

What the sink has accepted is not kept anywhere in a session. It is written
down here by the sink itself (`Sink.noting`): with every table that it accepts
it makes a note, and otherwise answers as it always does. The session that has
such a sink goes through the same states as the one that has not, and its
catalog and the notes are compared after each step.

A note has the name of the table as the sink was given it, in lower case, and
the catalog puts that name in lower case again. That both tell the same tables
apart is `lowerCase_lowerCase`.
-/

namespace TableDump

/-! ## The catalog -/

namespace Catalog

variable (catalog : Catalog) (table : String) (fields : List String)

theorem lookup_filter_ne {α : Type} (entries : List (String × α)) (removed key : String) :
    (entries.filter fun entry => entry.1 != removed).lookup key
      = if key = removed then none else entries.lookup key := by
  induction entries with
  | nil => simp
  | cons entry entries ih =>
    obtain ⟨name, value⟩ := entry
    by_cases same : name = removed
    · subst same
      rw [List.filter_cons_of_neg (by simp), ih, List.lookup_cons]
      by_cases here : key = name
      · simp [here]
      · simp [beq_false_of_ne here]
    · rw [List.filter_cons_of_pos (by simpa using same), List.lookup_cons, List.lookup_cons, ih]
      by_cases here : key = name
      · subst here
        simp [same]
      · simp [beq_false_of_ne here]

theorem fields?_forget (name : String) :
    (catalog.forget table).fields? name
      = if lowerCase name = lowerCase table then none else catalog.fields? name :=
  lookup_filter_ne catalog.tables (lowerCase table) (lowerCase name)

theorem fields?_define (name : String) :
    (catalog.define table fields).fields? name
      = if lowerCase name = lowerCase table then some fields else catalog.fields? name := by
  have others := catalog.fields?_forget table name
  unfold fields? at others ⊢
  rw [define, List.lookup_cons, others]
  by_cases same : lowerCase name = lowerCase table
  · simp [same]
  · rw [beq_false_of_ne same, if_neg same, if_neg same]

/-- The catalog behind the definition of a table. -/
def learn : Catalog := if fields.isEmpty then catalog.forget table else catalog.define table fields

end Catalog

/-! ## Notes -/

/-- A table and its columns, as a sink was given them. -/
abbrev Note := String × List String

/-- **The columns in the newest of some notes about a table**, if there is such
a note and it has columns. The newest notes stand first. -/
def lastFields? (notes : List Note) (name : String) : Option (List String) :=
  (notes.lookup (lowerCase name)).filter fun fields => !fields.isEmpty

theorem lastFields?_cons (table : String) (fields : List String) (notes : List Note)
    (name : String) :
    lastFields? ((lowerCase table, fields) :: notes) name
      = if lowerCase name = lowerCase table then if fields.isEmpty then none else some fields
        else lastFields? notes name := by
  unfold lastFields?
  rw [List.lookup_cons]
  by_cases same : lowerCase name = lowerCase table
  · rw [same, beq_self_eq_true, if_pos rfl]
    cases fields <;> rfl
  · rw [beq_false_of_ne same, if_neg same]

/-- **A catalog is proper**: it has no table without columns, and no columns of the
same name. -/
def Catalog.Proper (catalog : Catalog) : Prop :=
  ∀ entry ∈ catalog.tables, entry.2 ≠ [] ∧ entry.2.Nodup

namespace Catalog.Proper

variable {catalog : Catalog} {table : String} {fields : List String}

/-- It stays so with a table that has distinct columns. -/
theorem learn (h : catalog.Proper) (table : String) (distinct : fields.Nodup) :
    (catalog.learn table fields).Proper := by
  intro entry mem
  unfold Catalog.learn at mem
  split at mem
  case isTrue => exact h entry (List.mem_of_mem_filter mem)
  case isFalse given =>
    rcases List.mem_cons.1 mem with rfl | mem
    · exact ⟨by simpa using given, distinct⟩
    · exact h entry (List.mem_of_mem_filter mem)

/-- The columns of a table are distinct. -/
theorem nodup (h : catalog.Proper) (known : catalog.fields? table = some fields) :
    fields.Nodup := by
  obtain ⟨before, behind, tables, -⟩ := List.lookup_eq_some_iff.1 known
  have mem : (lowerCase table, fields) ∈ catalog.tables := tables ▸ by simp
  exact (h _ mem).2

end Catalog.Proper

/-- **A catalog recalls some notes**: it has the columns in the newest of them.
It has no table without columns, and no columns of the same name. -/
structure Catalog.Recalls (catalog : Catalog) (notes : List Note) : Prop where
  fields?_eq : ∀ name, catalog.fields? name = lastFields? notes name
  proper : ∀ entry ∈ catalog.tables, entry.2 ≠ [] ∧ entry.2.Nodup

namespace Catalog.Recalls

variable {catalog : Catalog} {notes : List Note}

theorem empty : ({} : Catalog).Recalls [] := ⟨fun _ => rfl, nofun⟩

/-- **The catalog learns what is noted.** -/
theorem learn (h : catalog.Recalls notes) (table : String) {fields : List String}
    (distinct : fields.Nodup) :
    (catalog.learn (lowerCase table) fields).Recalls ((lowerCase table, fields) :: notes) where
  fields?_eq name := by
    unfold Catalog.learn
    rw [lastFields?_cons, ← h.fields?_eq name]
    split
    case isTrue => rw [fields?_forget, lowerCase_lowerCase]
    case isFalse => rw [fields?_define, lowerCase_lowerCase]
  proper := Catalog.Proper.learn h.proper (lowerCase table) distinct

end Catalog.Recalls

variable {σ ε κ : Type}

namespace Sink

/-- **A sink that notes what it accepts**, the newest first, and answers as
before. -/
def noting (sink : Sink σ ε) : Sink (σ × List Note) ε where
  ofFault := sink.ofFault
  onTable table fields := fun (state, notes) =>
    match sink.onTable table fields state with
    | (.ok (), state) => (.ok (), state, (table, fields) :: notes)
    | (.error refusal, state) => (.error refusal, state, notes)
  onRow table row := fun (state, notes) =>
    let (outcome, state) := sink.onRow table row state
    (outcome, state, notes)

variable (sink : Sink σ ε)

theorem takeRows_noting (table : String) (rows : List Row) (state : σ) (notes : List Note) :
    sink.noting.takeRows table rows (state, notes)
      = ((sink.takeRows table rows state).1, (sink.takeRows table rows state).2, notes) := by
  induction rows generalizing state with
  | nil => rfl
  | cons row rows ih =>
    have noted : sink.noting.onRow table row (state, notes)
        = ((sink.onRow table row state).1, (sink.onRow table row state).2, notes) := rfl
    rw [takeRows, takeRows, noted]
    rcases sink.onRow table row state with ⟨_ | _, state'⟩
    · rfl
    · exact ih state'

theorem takeInsertion_noting (statement : Statement) (selection : Selection) (catalog : Catalog)
    (state : σ) (notes : List Note) :
    let taken := sink.takeInsertion statement selection catalog state
    sink.noting.takeInsertion statement selection catalog (state, notes)
      = (taken.1, taken.2, notes) := by
  dsimp only
  unfold takeInsertion
  rcases Insertion.ofStatement statement selection catalog with fault | _ | insertion
  · rfl
  · rfl
  · dsimp only
    rw [takeRows_noting]
    rcases sink.takeRows insertion.table insertion.rows state with ⟨_ | _, state'⟩
    · rfl
    · dsimp only
      cases insertion.defect? <;> rfl

end Sink

/-! ## One statement -/

namespace Session

/-- The session with notes beside the state of its sink. -/
def noting (session : Session σ) (notes : List Note) : Session (σ × List Note) where
  selection := session.selection
  settings := session.settings
  catalog := session.catalog
  tally := session.tally
  sinkState := (session.sinkState, notes)

/-- **What a statement does to a catalog and to the notes**: nothing, or it
defines a table, and both have it. -/
inductive Learns (statement : Statement) (selection : Selection) (catalog : Catalog)
    (notes : List Note) : Except ε Unit × Session σ → (notes' : List Note) → Prop where
  | nothing {outcome : Except ε Unit} {session : Session σ}
      (unselected : session.selection = selection) (unchanged : session.catalog = catalog) :
      Learns statement selection catalog notes (outcome, session) notes
  | table {definition : TableDefinition} {session : Session σ}
      (command : statement.command = .create)
      (found : TableDefinition.ofStatement? statement selection = some definition)
      (distinct : definition.fields.Nodup) (unselected : session.selection = selection)
      (learned : session.catalog = catalog.learn (lowerCase definition.name) definition.fields) :
      Learns statement selection catalog notes (.ok (), session)
        ((lowerCase definition.name, definition.fields) :: notes)

variable (sink : Sink σ ε) (statement : Statement) (session : Session σ) (notes : List Note)

/-- A definition is learned when the sink has accepted it. -/
theorem createTable_noting {definition : TableDefinition} (command : statement.command = .create)
    (found : TableDefinition.ofStatement? statement session.selection = some definition) :
    let created := session.createTable sink definition
    ∃ notes', (session.noting notes).createTable sink.noting definition
        = (created.1, created.2.noting notes')
      ∧ Learns statement session.selection session.catalog notes created notes' := by
  dsimp only
  unfold createTable
  dsimp only
  cases distinct : ensureDistinct (lowerCase definition.name) definition.fields with
  | error fault => exact ⟨notes, rfl, .nothing rfl rfl⟩
  | ok _ =>
    have nodup := ensureDistinct_eq_ok_iff.1 distinct
    unfold Sink.noting noting
    dsimp only
    rcases sink.onTable (lowerCase definition.name) definition.fields session.sinkState
      with ⟨refusal | _, state⟩
    · exact ⟨notes, rfl, .nothing rfl rfl⟩
    · refine ⟨(lowerCase definition.name, definition.fields) :: notes, ?_⟩
      dsimp only
      cases nothing : definition.fields.isEmpty
      · exact ⟨rfl, .table command found nodup rfl (by simp [Catalog.learn, nothing])⟩
      · exact ⟨rfl, .table command found nodup rfl (by simp [Catalog.learn, nothing])⟩

theorem carryOut_noting :
    let carried := session.carryOut sink statement
    ∃ notes', (session.noting notes).carryOut sink.noting statement
        = (carried.1, carried.2.noting notes')
      ∧ Learns statement session.selection session.catalog notes carried notes' := by
  dsimp only
  unfold carryOut
  cases command : statement.command with
  | other => exact ⟨notes, rfl, .nothing rfl rfl⟩
  | insert =>
    refine ⟨notes, ?_⟩
    unfold insertRows noting
    dsimp only
    rw [Sink.takeInsertion_noting]
    rcases sink.takeInsertion statement session.selection session.catalog session.sinkState
      with ⟨_ | _ | _, state⟩ <;> exact ⟨rfl, .nothing rfl rfl⟩
  | create =>
    have same : (session.noting notes).selection = session.selection := rfl
    dsimp only
    rw [same]
    cases found : TableDefinition.ofStatement? statement session.selection with
    | none => exact ⟨notes, rfl, .nothing rfl rfl⟩
    | some definition => exact createTable_noting sink statement session notes command found

/-- **One statement**: the session that takes notes does what the other one
does, and the catalog learns what is noted. -/
theorem handle_noting :
    let handled := session.handle sink statement
    ∃ notes', (session.noting notes).handle sink.noting statement
        = (handled.1, handled.2.noting notes')
      ∧ Learns statement session.selection session.catalog notes handled notes' :=
  carryOut_noting sink statement
    { session with tally := { session.tally with statements := session.tally.statements + 1 } }
    notes

namespace Learns

variable {selection : Selection} {catalog : Catalog} {notes' : List Note}
  {handled : Except ε Unit × Session σ} {statement : Statement} {notes : List Note}

/-- The catalog recalls the notes afterwards if it did before. -/
theorem recalls (h : Learns statement selection catalog notes handled notes')
    (before : catalog.Recalls notes) : handled.2.catalog.Recalls notes' := by
  cases h with
  | nothing _ unchanged => exact unchanged ▸ before
  | table _ _ distinct _ learned => exact learned ▸ before.learn _ distinct

/-- The catalog stays proper. -/
theorem proper (h : Learns statement selection catalog notes handled notes')
    (before : catalog.Proper) : handled.2.catalog.Proper := by
  cases h with
  | nothing _ unchanged => exact unchanged ▸ before
  | table _ _ distinct _ learned => exact learned ▸ before.learn _ distinct

theorem selection_eq (h : Learns statement selection catalog notes handled notes') :
    handled.2.selection = selection := by
  cases h <;> assumption

/-- The catalog changes only when a definition succeeds. -/
theorem catalog_eq_or (h : Learns statement selection catalog notes handled notes') :
    handled.2.catalog = catalog ∨ statement.command = .create ∧ handled.1 = .ok () := by
  cases h with
  | nothing _ unchanged => exact .inl unchanged
  | table command => exact .inr ⟨command, rfl⟩

/-- And only a definition is noted. -/
theorem notes_eq_or (h : Learns statement selection catalog notes handled notes') :
    notes' = notes ∨ ∃ definition, statement.command = .create
      ∧ TableDefinition.ofStatement? statement selection = some definition
      ∧ notes' = (lowerCase definition.name, definition.fields) :: notes := by
  cases h with
  | nothing => exact .inl rfl
  | table command found => exact .inr ⟨_, command, found, rfl⟩

end Learns

/-- **An insertion that names no columns** hands over rows with the columns in
the catalog. -/
theorem handle_plainInsertion (sink : Sink σ ε) (session : Session σ) {statement : Statement}
    {verb : Token} {table : String} {tuples : List Token}
    (tokens : statement.tokens
      = verb :: .keyword .INTO :: .identifier table :: .keyword .VALUES :: tuples)
    (listed : tuples ≠ []) (chosen : session.selection.contains table = true) :
    let asked := Insertion.ofTuples statement table (session.catalog.fields? table) tuples
    Insertion.ofStatement statement session.selection session.catalog = .ok (some asked)
      ∧ (statement.command = .insert → (session.handle sink statement).2.sinkState
        = (sink.takeRows table asked.rows session.sinkState).2) := by
  dsimp only
  have asked : Insertion.ofStatement statement session.selection session.catalog
      = .ok (some (.ofTuples statement table (session.catalog.fields? table) tuples)) := by
    rw [Insertion.ofStatement_of_columns tokens .known listed, if_pos chosen]
  have named : (Insertion.ofTuples statement table (session.catalog.fields? table)
      tuples).table = table := rfl
  refine ⟨asked, fun insertion => ?_⟩
  unfold handle carryOut insertRows Sink.takeInsertion
  rw [insertion, asked]
  dsimp only
  rw [named]
  generalize Insertion.ofTuples statement table (session.catalog.fields? table) _ = insertion
  rcases sink.takeRows table insertion.rows session.sinkState with ⟨_ | _, state⟩
  · rfl
  · dsimp only
    cases insertion.defect? <;> rfl

end Session

/-! ## Whole sessions -/

/-- **Two ways of handling statements can be followed side by side**: if they
agree on each statement that a reader hands out whether it is refused, and states that
are related stay so, then so they do over all of these statements. -/
theorem Reader.driveWithin_related {σ' : Type} [Cursor κ] {Related : σ → σ' → Prop}
    {handle : Statement → σ → Except ε Unit × σ} {handle' : Statement → σ' → Except ε Unit × σ'}
    (ofFault : Fault → ε) :
    ∀ (fuel count : Nat) (reader : Reader κ) (state : σ) (state' : σ'),
      (∀ statement, reader.Emits statement → ∀ state state', Related state state' →
        (handle' statement state').1 = (handle statement state).1
          ∧ Related (handle statement state).2 (handle' statement state').2) →
      Related state state' →
      Related (driveWithin handle ofFault fuel count reader state).2.2
        (driveWithin handle' ofFault fuel count reader state').2.2
  | 0, _, _, _, _, _, related => related
  | fuel + 1, count, reader, state, state', step, related => by
    unfold driveWithin
    rcases here : reader.next with ⟨_ | _ | statement, reader'⟩
    · exact related
    · exact related
    · dsimp only
      obtain ⟨agree, related'⟩ := step statement (.of_next here) state state' related
      generalize handle' statement state' = handled' at agree related'
      generalize handle statement state = handled at agree related'
      obtain ⟨outcome', later'⟩ := handled'
      obtain ⟨outcome, later⟩ := handled
      obtain rfl : outcome' = outcome := agree
      cases outcome' with
      | error refusal => exact related'
      | ok _ =>
        exact driveWithin_related ofFault fuel (count + 1) reader' _ _
          (fun statement emits => step statement (.of_later here emits)) related'

namespace Session

/-- What is left of a session is what the handing out of statements leaves. -/
theorem extract_snd [Cursor κ] (sink : Sink σ ε) (reader : Reader κ) (session : Session σ) :
    (session.extract sink reader).2 = (reader.drive (handle sink) sink.ofFault session).2.2 := by
  unfold extract
  rcases reader.drive (handle sink) sink.ofFault session with ⟨_ | _, _, _⟩ <;> rfl

/-- What a session can be told to do. -/
inductive Operation where
  /-- Work through a dump in memory. -/
  | text (dump : String)
  /-- Work through a dump that comes from a source. -/
  | source (dump : Source)
  /-- Work through one statement. -/
  | statement (statement : Statement)

/-- The session after an operation, whether it succeeds or fails. -/
def perform (sink : Sink σ ε) (session : Session σ) : Operation → Session σ
  | .text dump => (session.extractText sink dump).2
  | .source dump => (session.extractSource sink dump).2
  | .statement statement => (session.handle sink statement).2

/-- The session after some operations. -/
def after (sink : Sink σ ε) (session : Session σ) (operations : List Operation) : Session σ :=
  operations.foldl (perform sink) session

/-- **A statement that an operation works through**, or would if none before it were
refused. -/
def Operation.Gives (settings : Settings) : Operation → Statement → Prop
  | .text dump, given => (Reader.ofBytes (bytesOf dump) settings).Emits given
  | .source dump, given => (Reader.ofSource dump settings).Emits given
  | .statement alone, given => given = alone

/-- What is left of a state on which an operation works, with settings that it has, by handing
statements to `handle`. -/
def Operation.run (handle : Statement → σ → Except ε Unit × σ) (ofFault : Fault → ε)
    (settings : σ → Settings) (state : σ) : Operation → σ
  | .text dump => ((Reader.ofBytes (bytesOf dump) (settings state)).drive handle ofFault state).2.2
  | .source dump => ((Reader.ofSource dump (settings state)).drive handle ofFault state).2.2
  | .statement alone => (handle alone state).2

/-- So do the operations on a session. -/
theorem perform_eq (sink : Sink σ ε) (session : Session σ) (operation : Operation) :
    session.perform sink operation
      = operation.run (handle sink) sink.ofFault Session.settings session := by
  cases operation with
  | text dump | source dump => exact extract_snd sink _ session
  | statement statement => rfl

/-- **What an operation does can be followed side by side**, if that is so for the statements that
it works through. -/
theorem Operation.run_related {σ' : Type} {Related : σ → σ' → Prop}
    {handle : Statement → σ → Except ε Unit × σ} {handle' : Statement → σ' → Except ε Unit × σ'}
    (ofFault : Fault → ε) {settings : σ → Settings} {settings' : σ' → Settings}
    (operation : Operation) {state : σ} {state' : σ'}
    (step : ∀ statement, operation.Gives (settings state) statement →
      ∀ state state', Related state state' →
        (handle' statement state').1 = (handle statement state).1
          ∧ Related (handle statement state).2 (handle' statement state').2)
    (settings_eq : settings' state' = settings state) (related : Related state state') :
    Related (operation.run handle ofFault settings state)
      (operation.run handle' ofFault settings' state') := by
  unfold run
  rw [settings_eq]
  cases operation with
  | text dump | source dump =>
    exact Reader.driveWithin_related ofFault _ 0 _ state state' step related
  | statement statement => exact (step statement rfl state state' related).2

/-- **Two sessions are in step**: one is the other with notes, and the catalog
recalls them. -/
def InStep (selection : Selection) (session : Session σ) (noted : Session (σ × List Note)) : Prop :=
  ∃ notes, noted = session.noting notes ∧ session.selection = selection
    ∧ session.catalog.Recalls notes

namespace InStep

variable {selection : Selection} {session : Session σ} {noted : Session (σ × List Note)}

theorem handle (sink : Sink σ ε) (statement : Statement) (h : InStep selection session noted) :
    (noted.handle sink.noting statement).1 = (session.handle sink statement).1
      ∧ InStep selection (session.handle sink statement).2
          (noted.handle sink.noting statement).2 := by
  obtain ⟨notes, rfl, rfl, recalls⟩ := h
  obtain ⟨notes', same, learns⟩ := handle_noting sink statement session notes
  rw [same]
  exact ⟨rfl, notes', rfl, learns.selection_eq, learns.recalls recalls⟩

theorem perform (sink : Sink σ ε) (operation : Operation) (h : InStep selection session noted) :
    InStep selection (session.perform sink operation) (noted.perform sink.noting operation) := by
  have settings_eq : noted.settings = session.settings := by
    obtain ⟨notes, rfl, -⟩ := h
    rfl
  rw [perform_eq, perform_eq]
  exact operation.run_related sink.ofFault
    (fun statement _ _ _ related => related.handle sink statement) settings_eq h

/-- **They stay in step.** -/
theorem after (sink : Sink σ ε) (operations : List Operation)
    (h : InStep selection session noted) :
    InStep selection (session.after sink operations) (noted.after sink.noting operations) :=
  List.foldl_rel h fun operation _ _ _ related => related.perform sink operation

end InStep

/-- **What a session knows of the tables is what its sink has accepted.** After
any operations the catalog has the columns in the newest definition that the
sink has accepted, of any name in any case, and none if that definition had
none; what it has is never empty and never names a column twice.

Statements do not change the catalog unless they define a table and succeed; a
note is made of the name and the columns that such a definition has. And an
insertion that names no columns has those of the newest note. -/
theorem catalog_after (sink : Sink σ ε) (selection : Selection) (settings : Settings) (state : σ)
    (operations : List Operation) :
    let start : Session σ := { selection, settings, sinkState := state }
    let session := start.after sink operations
    ∃ notes, (start.noting []).after sink.noting operations = session.noting notes
      ∧ (∀ name, session.catalog.fields? name = lastFields? notes name)
      ∧ (∀ entry ∈ session.catalog.tables, entry.2 ≠ [] ∧ entry.2.Nodup)
      ∧ ∀ statement,
        let handled := session.handle sink statement
        (handled.2.catalog = session.catalog
            ∨ statement.command = .create ∧ handled.1 = .ok ())
          ∧ (∃ notes', (session.noting notes).handle sink.noting statement
                = (handled.1, handled.2.noting notes')
              ∧ (notes' = notes ∨ ∃ definition, statement.command = .create
                ∧ TableDefinition.ofStatement? statement selection = some definition
                ∧ notes' = (lowerCase definition.name, definition.fields) :: notes))
          ∧ ∀ verb table tuples,
            statement.tokens
                = verb :: .keyword .INTO :: .identifier table :: .keyword .VALUES :: tuples →
              tuples ≠ [] → selection.contains table = true →
            let asked := Insertion.ofTuples statement table (lastFields? notes table) tuples
            Insertion.ofStatement statement selection session.catalog = .ok (some asked)
              ∧ (statement.command = .insert → handled.2.sinkState
                = (sink.takeRows table asked.rows session.sinkState).2) := by
  intro start session
  obtain ⟨notes, noted, chosen, recalls⟩ : InStep selection session _ :=
    InStep.after sink operations ⟨[], rfl, rfl, .empty⟩
  refine ⟨notes, noted, recalls.fields?_eq, recalls.proper, fun statement => ?_⟩
  obtain ⟨notes', same, learns⟩ := handle_noting sink statement session notes
  refine ⟨learns.catalog_eq_or, ⟨notes', same, chosen ▸ learns.notes_eq_or⟩, ?_⟩
  intro verb table tuples tokens listed contained
  have asked := handle_plainInsertion sink session tokens listed (chosen ▸ contained)
  rwa [recalls.fields?_eq table, chosen] at asked

end Session

end TableDump
