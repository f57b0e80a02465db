import Mathlib
import TableDump.Proofs.Effects
import TableDump.Proofs.Schemas

/-!
# Every row has its values under names of their own

A row has each of its values under the name of a column, and of two columns with the
same name only the first could be found. No row that a session hands to its sink has
two such columns: by the names of its columns one finds the values of the tuple that it
comes from, all of them and in their order (`Session.keyed_after`).

The names come from three places. Those in the statement are checked there. Those in
the catalog were checked when the table was defined, and the catalog has been proper
ever since (`Catalog.Proper`). And numbers are distinct (`nodup_numberedColumns`).

A sink is handed a row before it can refuse it, and what it does with the row is not
for others to see. So here a sink records every row that it is handed
(`Sink.recording`), and otherwise does what it always does.
-/

namespace TableDump

open Grammar

/-! ## Keys -/

/-- Under distinct keys each value is found. -/
theorem lookup_zip_of_nodup {α : Type} {keys : List String} (distinct : keys.Nodup)
    (values : List α) {index : Nat} {key : String} (here : keys[index]? = some key) :
    (keys.zip values).lookup key = values[index]? := by
  induction keys generalizing values index with
  | nil => simp at here
  | cons first keys ih =>
    obtain ⟨fresh, distinct⟩ := List.nodup_cons.1 distinct
    cases values with
    | nil => rfl
    | cons value values =>
      rw [List.zip_cons_cons, List.lookup_cons]
      cases index with
      | zero =>
        obtain rfl : first = key := Option.some.inj here
        rw [beq_self_eq_true]
        rfl
      | succ index =>
        have other : key ≠ first := fun same => fresh (same ▸ List.mem_of_getElem? here)
        rw [beq_false_of_ne other]
        exact ih distinct values here

/-- Numbered columns are distinct. -/
theorem nodup_numberedColumns (count : Nat) : (numberedColumns count).Nodup := by
  refine List.nodup_range.map fun first second same => ?_
  have digits := congrArg String.toList same
  rw [String.toList_append, String.toList_append] at digits
  exact Nat.repr_inj.1 (String.toList_inj.1 (List.append_cancel_left digits))

/-- **A row has some values under names of their own**: they are its values, there is
one at least, and each of them is what is found under its column. -/
structure Row.Keys (row : Row) (values : List Cell) : Prop where
  nonempty : row.cells ≠ []
  values_eq : row.values = values
  distinct : row.columns.Nodup
  get?_eq : ∀ (index : Nat) (column : String), row.columns[index]? = some column →
    row.get? column = values[index]?

theorem Row.keys_zip {columns : List String} {values : List Cell} (distinct : columns.Nodup)
    (same : columns.length = values.length) (nonempty : values ≠ []) :
    Row.Keys { cells := columns.zip values } values := by
  have columns_eq : Row.columns { cells := columns.zip values } = columns :=
    List.map_fst_zip same.le
  have values_eq : Row.values { cells := columns.zip values } = values :=
    List.map_snd_zip same.ge
  refine ⟨fun none => ?_, values_eq, columns_eq.symm ▸ distinct, fun index column here => ?_⟩
  · rw [← values_eq] at nonempty
    exact nonempty (congrArg (List.map Prod.snd) none)
  · rw [columns_eq] at here
    exact lookup_zip_of_nodup distinct values here

/-! ## Tuples -/

namespace Grammar

/-- A list of items has one. -/
theorem CommaSeparated.ne_nil {α : Type} {IsItem : Token → α → Prop} {tokens : List Token}
    {items : List α} (h : CommaSeparated IsItem tokens items) : items ≠ [] := by
  cases h <;> exact List.cons_ne_nil _ _

/-- **Items that stand first in a list**, with a comma between any two of them. What
stands behind them may be anything. -/
inductive LeadingItems {α : Type} (IsItem : Token → α → Prop) :
    List Token → List α → Prop where
  | nothing {tokens : List Token} : LeadingItems IsItem tokens []
  | last {token : Token} {item : α} {rest : List Token} (here : IsItem token item) :
      LeadingItems IsItem (token :: rest) [item]
  | cons {token : Token} {item : α} {tokens : List Token} {items : List α}
      (here : IsItem token item) (others : LeadingItems IsItem tokens items) :
      LeadingItems IsItem (token :: .delimiter .comma :: tokens) (item :: items)

namespace LeadingItems

variable {α : Type} {IsItem IsItem' : Token → α → Prop} {tokens : List Token} {items : List α}

/-- The first few of them stand first as well. -/
theorem first_few (h : LeadingItems IsItem tokens items) {few : List α}
    (first : few <+: items) : LeadingItems IsItem tokens few := by
  induction h generalizing few with
  | nothing => exact List.prefix_nil.1 first ▸ .nothing
  | last here =>
    rcases few with _ | ⟨item, few⟩
    · exact .nothing
    · obtain ⟨rfl, none⟩ := List.cons_prefix_cons.1 first
      exact List.prefix_nil.1 none ▸ .last here
  | cons here _ ih =>
    rcases few with _ | ⟨item, few⟩
    · exact .nothing
    · obtain ⟨rfl, further⟩ := List.cons_prefix_cons.1 first
      exact .cons here (ih further)

theorem imp (h : LeadingItems IsItem tokens items)
    (step : ∀ token item, IsItem token item → IsItem' token item) :
    LeadingItems IsItem' tokens items := by
  induction h with
  | nothing => exact .nothing
  | last here => exact .last (step _ _ here)
  | cons here _ ih => exact .cons (step _ _ here) ih

end LeadingItems

/-- **A tuple, and a row with its values** under names of their own. -/
def IsKeyed (token : Token) (row : Row) : Prop :=
  ∃ values, Parenthesized IsCell token values ∧ row.Keys values

/-- What a tuple becomes, if the columns are distinct as far as they are known. -/
theorem IsTuple.isKeyed {columns? : Option (List String)}
    (distinct : ∀ columns, columns? = some columns → columns.Nodup) {token : Token} {row : Row}
    (h : IsTuple columns? token row) : IsKeyed token row := by
  cases h with
  | @intro values _ listed cells =>
    have nonempty : values ≠ [] := by
      cases listed with
      | intro inside => exact inside.ne_nil
    refine ⟨values, listed, ?_⟩
    cases cells with
    | @named columns _ same => exact Row.keys_zip (distinct columns rfl) same nonempty
    | numbered =>
      have numbered := Row.keys_zip (nodup_numberedColumns values.length)
        (by rw [numberedColumns, List.length_map, List.length_range]) nonempty
      rwa [numberedColumns_zip] at numbered

end Grammar

/-- **The rows of an insertion** are those of its first tuples, whatever is wrong behind
them. -/
theorem Insertion.exists_readTuples (statement : Statement) (table : String)
    (columns? : Option (List String)) : ∀ (tokens : List Token) (before : List Row),
    ∃ more, (readTuples statement table columns? before tokens).1 = before.reverse ++ more
      ∧ LeadingItems (IsTuple columns?) tokens more
  | [], before => ⟨[], (List.append_nil _).symm, .nothing⟩
  | token :: rest, before => by
    by_cases group : ∃ tuple, token = .group tuple
    case neg =>
      refine ⟨[], ?_, .nothing⟩
      rw [readTuples, List.append_nil]
      exact fun tuple same => group ⟨tuple, same⟩
    case pos =>
      obtain ⟨tuple, rfl⟩ := group
      rw [readTuples]
      cases found : tupleRow table columns? tuple with
      | error fault => exact ⟨[], (List.append_nil _).symm, .nothing⟩
      | ok row =>
        have here : IsTuple columns? (.group tuple) row := (tupleRow_eq_ok_iff table).1 found
        cases rest with
        | nil => exact ⟨[row], List.reverse_cons, .last here⟩
        | cons separator rest =>
          by_cases comma : separator = .delimiter .comma
          · obtain ⟨more, rows_eq, others⟩ :=
              exists_readTuples statement table columns? rest (row :: before)
            refine ⟨row :: more, ?_, comma ▸ .cons here others⟩
            dsimp only
            rw [if_pos comma, rows_eq, List.reverse_cons, List.append_assoc]
            rfl
          · refine ⟨[row], ?_, .last here⟩
            dsimp only
            rw [if_neg comma, List.reverse_cons]

/-! ## One statement -/

/-- **Rows that a statement lists** are those of its first tuples, one for each and in
the same order. The tuples stand behind `VALUES`, and that behind the name of the table
and perhaps a group of columns. -/
inductive Statement.Lists (statement : Statement) : List Row → Prop where
  | nothing : Lists statement []
  | rows {verb : Token} {table : String} {list tuples : List Token} {rows : List Row}
      (tokens : statement.tokens
        = verb :: .keyword .INTO :: .identifier table :: (list ++ .keyword .VALUES :: tuples))
      (columns : list = [] ∨ ∃ names, list = [.group names])
      (keyed : LeadingItems IsKeyed tuples rows) : Lists statement rows

/-- The first few of them are listed as well. -/
theorem Statement.Lists.first_few {statement : Statement} {rows few : List Row}
    (h : statement.Lists rows) (first : few <+: rows) : statement.Lists few := by
  cases h with
  | nothing => exact List.prefix_nil.1 first ▸ .nothing
  | rows tokens columns keyed => exact .rows tokens columns (keyed.first_few first)

/-- **All rows of an insertion are listed**, if what is known of the tables is proper. -/
theorem Insertion.lists_rows {statement : Statement} {selection : Selection} {catalog : Catalog}
    {insertion : Insertion} (proper : catalog.Proper)
    (h : ofStatement statement selection catalog = .ok (some insertion)) :
    statement.Lists insertion.rows := by
  obtain ⟨verb, table, list, tuples, columns?, -, columns, tokens, rfl⟩ :=
    exists_of_ofStatement h
  obtain ⟨rows, rows_eq, leading⟩ := exists_readTuples statement table columns? tuples []
  show statement.Lists (readTuples statement table columns? [] tuples).1
  rw [rows_eq]
  cases columns with
  | known =>
    exact .rows tokens (.inl rfl) (leading.imp fun token row tuple =>
      tuple.isKeyed fun fields known => proper.nodup known)
  | @named token names listed distinct =>
    obtain ⟨list, rfl⟩ : ∃ list, token = .group list := by
      cases listed with
      | intro inside => exact ⟨_, rfl⟩
    refine .rows tokens (.inr ⟨list, rfl⟩) (leading.imp fun token row tuple =>
      tuple.isKeyed fun fields same => ?_)
    obtain rfl := Option.some.inj same
    exact distinct

variable {σ ε κ : Type}

namespace Sink

/-- **A sink that records the rows it is handed**, and answers as before. -/
def recording (sink : Sink σ ε) : Sink (σ × List Row) ε where
  ofFault := sink.ofFault
  onTable table fields := fun (state, rows) =>
    let (outcome, state) := sink.onTable table fields state
    (outcome, state, rows)
  onRow table row := fun (state, rows) =>
    let (outcome, state) := sink.onRow table row state
    (outcome, state, rows ++ [row])

variable (sink : Sink σ ε)

/-- Rows are recorded up to the first one that is refused, and this one too. -/
theorem takeRows_recording (table : String) (rows : List Row) (state : σ)
    (recorded : List Row) :
    ∃ handed, handed <+: rows
      ∧ sink.recording.takeRows table rows (state, recorded)
        = ((sink.takeRows table rows state).1, (sink.takeRows table rows state).2,
          recorded ++ handed) := by
  induction rows generalizing state recorded with
  | nil => exact ⟨[], List.prefix_rfl, by rw [List.append_nil]; rfl⟩
  | cons row rows ih =>
    have asked : sink.recording.onRow table row (state, recorded)
        = ((sink.onRow table row state).1, (sink.onRow table row state).2, recorded ++ [row]) := rfl
    rw [takeRows, takeRows, asked]
    rcases sink.onRow table row state with ⟨_ | _, state'⟩
    · exact ⟨[row], List.prefix_append [row] rows, rfl⟩
    · obtain ⟨handed, first, same⟩ := ih state' (recorded ++ [row])
      refine ⟨row :: handed, List.cons_prefix_cons.2 ⟨rfl, first⟩, ?_⟩
      rw [List.append_assoc] at same
      exact same

theorem takeInsertion_recording (statement : Statement) (selection : Selection)
    {catalog : Catalog} (proper : catalog.Proper) (state : σ) (recorded : List Row) :
    let taken := sink.takeInsertion statement selection catalog state
    ∃ handed, statement.Lists handed
      ∧ sink.recording.takeInsertion statement selection catalog (state, recorded)
        = (taken.1, taken.2, recorded ++ handed) := by
  dsimp only
  unfold takeInsertion
  cases found : Insertion.ofStatement statement selection catalog with
  | error fault => exact ⟨[], .nothing, by rw [List.append_nil]; rfl⟩
  | ok asked =>
    cases asked with
    | none => exact ⟨[], .nothing, by rw [List.append_nil]⟩
    | some insertion =>
      obtain ⟨handed, first, same⟩ :=
        sink.takeRows_recording insertion.table insertion.rows state recorded
      refine ⟨handed, (Insertion.lists_rows proper found).first_few first, ?_⟩
      dsimp only
      rw [same]
      rcases sink.takeRows insertion.table insertion.rows state with ⟨_ | _, state'⟩
      · rfl
      · dsimp only
        cases insertion.defect? <;> rfl

end Sink

namespace Session

/-! ## Whole sessions -/

/-- The session with the recorded rows beside the state of its sink. -/
def recording (session : Session σ) (recorded : List Row) : Session (σ × List Row) where
  selection := session.selection
  settings := session.settings
  catalog := session.catalog
  tally := session.tally
  sinkState := (session.sinkState, recorded)

/-- With a definition no row is handed over. -/
theorem createTable_recording (sink : Sink σ ε) (definition : TableDefinition)
    (session : Session σ) (recorded : List Row) :
    let created := session.createTable sink definition
    (session.recording recorded).createTable sink.recording definition
      = (created.1, created.2.recording recorded) := by
  have asked : ∀ table fields, sink.recording.onTable table fields (session.sinkState, recorded)
      = ((sink.onTable table fields session.sinkState).1,
        (sink.onTable table fields session.sinkState).2, recorded) := fun _ _ => rfl
  unfold createTable recording
  dsimp only
  cases ensureDistinct (lowerCase definition.name) definition.fields with
  | error fault => rfl
  | ok _ =>
    dsimp only
    rw [asked]
    rcases sink.onTable (lowerCase definition.name) definition.fields session.sinkState
      with ⟨_ | _, state⟩
    · rfl
    · dsimp only
      cases definition.fields.isEmpty <;> rfl

theorem carryOut_recording (sink : Sink σ ε) (statement : Statement) (session : Session σ)
    (proper : session.catalog.Proper) (recorded : List Row) :
    let carried := session.carryOut sink statement
    ∃ handed, statement.Lists handed
      ∧ (session.recording recorded).carryOut sink.recording statement
        = (carried.1, carried.2.recording (recorded ++ handed)) := by
  dsimp only
  unfold carryOut
  cases statement.command with
  | other => exact ⟨[], .nothing, by rw [List.append_nil]⟩
  | insert =>
    obtain ⟨handed, lists, same⟩ := sink.takeInsertion_recording statement session.selection
      proper session.sinkState recorded
    refine ⟨handed, lists, ?_⟩
    unfold insertRows recording
    dsimp only
    rw [same]
    rcases sink.takeInsertion statement session.selection session.catalog session.sinkState
      with ⟨_ | _ | _, state⟩ <;> rfl
  | create =>
    refine ⟨[], .nothing, ?_⟩
    have same : (session.recording recorded).selection = session.selection := rfl
    dsimp only
    rw [List.append_nil, same]
    cases TableDefinition.ofStatement? statement session.selection with
    | none => rfl
    | some definition => exact createTable_recording sink definition session recorded

/-- **One statement**: the rows that are handed over are listed in it. -/
theorem handle_recording (sink : Sink σ ε) (statement : Statement) (session : Session σ)
    (proper : session.catalog.Proper) (recorded : List Row) :
    let handled := session.handle sink statement
    ∃ handed, statement.Lists handed
      ∧ (session.recording recorded).handle sink.recording statement
        = (handled.1, handled.2.recording (recorded ++ handed)) :=
  carryOut_recording sink statement
    { session with tally := { session.tally with statements := session.tally.statements + 1 } }
    proper recorded

/-- **A session and one with recorded rows**, which come from statements that were
given. What is known of the tables is proper. -/
def Records (Given : Statement → Prop) (settings : Settings) (session : Session σ)
    (recording : Session (σ × List Row)) : Prop :=
  ∃ handed : List (Statement × List Row),
    recording = session.recording (handed.flatMap Prod.snd) ∧ session.settings = settings
      ∧ session.catalog.Proper ∧ ∀ entry ∈ handed, Given entry.1 ∧ entry.1.Lists entry.2

namespace Records

variable {Given : Statement → Prop} {settings : Settings} {session : Session σ}
  {recording : Session (σ × List Row)}

theorem handle (sink : Sink σ ε) {statement : Statement} (given : Given statement)
    (h : Records Given settings session recording) :
    (recording.handle sink.recording statement).1 = (session.handle sink statement).1
      ∧ Records Given settings (session.handle sink statement).2
          (recording.handle sink.recording statement).2 := by
  obtain ⟨handed, rfl, rfl, proper, listed⟩ := h
  obtain ⟨_, -, learns⟩ := handle_noting sink statement session []
  obtain ⟨rows, lists, same⟩ :=
    handle_recording sink statement session proper (handed.flatMap Prod.snd)
  rw [same]
  refine ⟨rfl, handed ++ [(statement, rows)], ?_, ?_, learns.proper proper, ?_⟩
  · rw [List.flatMap_append, List.flatMap_singleton]
  · exact handle_settings sink statement session
  · intro entry mem
    rcases List.mem_append.1 mem with mem | mem
    · exact listed entry mem
    · obtain rfl := List.mem_singleton.1 mem
      exact ⟨given, lists⟩

theorem perform (sink : Sink σ ε) {operation : Operation}
    (given : ∀ statement, operation.Gives settings statement → Given statement)
    (h : Records Given settings session recording) :
    Records Given settings (session.perform sink operation)
      (recording.perform sink.recording operation) := by
  have settings_eq : recording.settings = session.settings ∧ session.settings = settings := by
    obtain ⟨handed, rfl, rfl, -⟩ := h
    exact ⟨rfl, rfl⟩
  rw [perform_eq, perform_eq]
  refine operation.run_related sink.ofFault (fun statement gives _ _ related => ?_) settings_eq.1 h
  exact related.handle sink (given statement (settings_eq.2 ▸ gives))

/-- **All operations keep the record.** -/
theorem after (sink : Sink σ ε) {operations : List Operation}
    (given : ∀ operation ∈ operations, ∀ statement, operation.Gives settings statement →
      Given statement) (h : Records Given settings session recording) :
    Records Given settings (session.after sink operations)
      (recording.after sink.recording operations) :=
  List.foldl_rel h fun operation mem _ _ related => related.perform sink (given operation mem)

end Records

/-- **Every row is keyed by distinct columns.** Whatever a session is told to do, and
whatever its sink makes of it, the rows that the sink is handed are those of the tuples
in the statements that the session works through, one for each tuple and in the same
order. And a row has the values of its tuple under names of their own. -/
theorem keyed_after (sink : Sink σ ε) (selection : Selection) (settings : Settings) (state : σ)
    (operations : List Operation) :
    let start : Session σ := { selection, settings, sinkState := state }
    ∃ handed : List (Statement × List Row),
      (start.recording []).after sink.recording operations
          = (start.after sink operations).recording (handed.flatMap Prod.snd)
        ∧ ∀ entry ∈ handed,
          (∃ operation ∈ operations, operation.Gives settings entry.1)
            ∧ entry.1.Lists entry.2 := by
  intro start
  have begins : Records
      (fun statement => ∃ operation ∈ operations, operation.Gives settings statement) settings
      start (start.recording []) := ⟨[], rfl, rfl, nofun, nofun⟩
  obtain ⟨handed, same, -, -, listed⟩ :=
    begins.after sink fun operation mem statement gives => ⟨operation, mem, gives⟩
  exact ⟨handed, same, listed⟩

end Session

end TableDump
