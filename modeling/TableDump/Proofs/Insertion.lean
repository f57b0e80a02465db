import Mathlib
import TableDump.Session

/-!
# What an insertion is, and what is done with it

A list of tokens is an insertion by the rules of `Grammar.IsInsertion`, which
also say what its rows are. An insertion is carried out completely exactly if
it is one: then the sink is handed its rows, in order, and else there is a fault
or the table is not chosen (`Sink.takeInsertion_eq_ok_iff`).

Three lists in an insertion have commas between their items – the columns, the
values of a tuple, and the tuples – and one relation describes them all, given
what an item is. It always has a first item, so that there is no empty list and
no comma without an item on either side.

Reading tells the items of a list by their places, and finds the end of it by
looking back. Its loops take two tokens at a time, and so do the inductions
here.
-/

namespace TableDump

namespace Grammar

/-! ## The grammar of insertions -/

/-- **Items with a comma between any two of them**, one at least. -/
inductive CommaSeparated {α : Type} (IsItem : Token → α → Prop) : List Token → List α → Prop where
  | last {token : Token} {item : α} (here : IsItem token item) :
      CommaSeparated IsItem [token] [item]
  | cons {token : Token} {item : α} {tokens : List Token} {items : List α}
      (here : IsItem token item) (others : CommaSeparated IsItem tokens items) :
      CommaSeparated IsItem (token :: .delimiter .comma :: tokens) (item :: items)

/-- A group of such items. -/
inductive Parenthesized {α : Type} (IsItem : Token → α → Prop) : Token → List α → Prop where
  | intro {tokens : List Token} {items : List α} (inside : CommaSeparated IsItem tokens items) :
      Parenthesized IsItem
        (.group (.delimiter .leftParen :: (tokens ++ [.delimiter .rightParen]))) items

/-- A name, and what it is. -/
inductive IsName : Token → String → Prop where
  | intro (name : String) : IsName (.identifier name) name

/-- **A value**: a number, a text or `NULL`. -/
inductive IsCell : Token → Cell → Prop where
  | integer (value : Int64) : IsCell (.integer value) (.integer value)
  | real (value : Binary64) : IsCell (.real value) (.real value)
  | text (value : String) : IsCell (.text value) (.text value)
  | null : IsCell (.keyword .NULL) .null

/-- **The row with some values**: under the names of the columns, one for each
value, or under their numbers if there are no names. -/
inductive IsRow : (columns? : Option (List String)) → List Cell → Row → Prop where
  | named {columns : List String} {values : List Cell} (same : columns.length = values.length) :
      IsRow (some columns) values { cells := columns.zip values }
  | numbered (values : List Cell) :
      IsRow none values
        { cells := values.zipIdx.map fun (value, index) => ("#" ++ index.repr, value) }

/-- **A tuple**, and the row that it is. -/
inductive IsTuple (columns? : Option (List String)) : Token → Row → Prop where
  | intro {token : Token} {values : List Cell} {row : Row}
      (listed : Parenthesized IsCell token values) (cells : IsRow columns? values row) :
      IsTuple columns? token row

/-- The columns of an insertion, if they are known: those that it names, once
each, or else those in the catalog. -/
inductive Columns (catalog : Catalog) (table : String) :
    List Token → (columns? : Option (List String)) → Prop where
  | known : Columns catalog table [] (catalog.fields? table)
  | named {token : Token} {columns : List String} (listed : Parenthesized IsName token columns)
      (distinct : columns.Nodup) : Columns catalog table [token] (some columns)

/-- **An insertion** into a chosen table, and its rows. -/
inductive IsInsertion (selection : Selection) (catalog : Catalog) :
    List Token → (table : String) → List Row → Prop where
  | intro {verb : Token} {table : String} {list tuples : List Token}
      {columns? : Option (List String)} {rows : List Row}
      (chosen : selection.contains table = true) (columns : Columns catalog table list columns?)
      (values : CommaSeparated (IsTuple columns?) tuples rows) :
      IsInsertion selection catalog
        (verb :: .keyword .INTO :: .identifier table :: (list ++ .keyword .VALUES :: tuples))
        table rows

end Grammar

open Grammar

/-- What is done in two steps succeeds if both steps do. -/
theorem bind_eq_ok_iff {ε α β : Type} {first : Except ε α} {next : α → Except ε β} {value : β} :
    first >>= next = .ok value ↔ ∃ found, first = .ok found ∧ next found = .ok value := by
  cases first with
  | error fault =>
    refine ⟨nofun, ?_⟩
    rintro ⟨_, failed, -⟩
    exact absurd failed nofun
  | ok found =>
    show next found = .ok value ↔ _
    simp

/-! ## Lists -/

section Lists

variable {α : Type} {IsItem : Token → α → Prop} {item? : Token → Option α}

theorem not_commaSeparated_nil (items : List α) : ¬ CommaSeparated IsItem [] items := nofun

theorem commaSeparated_singleton {token : Token} {items : List α} :
    CommaSeparated IsItem [token] items ↔ ∃ item, IsItem token item ∧ [item] = items := by
  refine ⟨fun h => ?_, ?_⟩
  · cases h with
    | @last _ item here => exact ⟨item, here, rfl⟩
  · rintro ⟨item, here, rfl⟩
    exact .last here

theorem commaSeparated_cons {token separator : Token} {tokens : List Token} {items : List α} :
    CommaSeparated IsItem (token :: separator :: tokens) items
      ↔ ∃ item, IsItem token item ∧ separator = .delimiter .comma
        ∧ ∃ others, CommaSeparated IsItem tokens others ∧ item :: others = items := by
  refine ⟨fun h => ?_, ?_⟩
  · cases h with
    | @cons _ item _ others here further => exact ⟨item, here, rfl, others, further, rfl⟩
  · rintro ⟨item, here, rfl, others, further, rfl⟩
    exact .cons here further

/-- **The items of a list are read by their places**: given that a closing
parenthesis is no item, what stands before it is items and commas. -/
theorem itemsFrom_eq_ok_iff (closing : item? (.delimiter .rightParen) = none) :
    ∀ (tokens : List Token) (index : Nat) (items : List α),
      itemsFrom item? index (tokens ++ [.delimiter .rightParen]) = .ok items
        ↔ CommaSeparated (fun token item => item? token = some item) tokens items
  | [], index, items => by
    show itemsFrom item? index [.delimiter .rightParen] = .ok items ↔ _
    rw [itemsFrom, closing]
    exact ⟨nofun, fun h => absurd h (not_commaSeparated_nil items)⟩
  | [token], index, items => by
    show itemsFrom item? index [token, .delimiter .rightParen] = .ok items ↔ _
    rw [itemsFrom, commaSeparated_singleton]
    cases item? token with
    | none => simp
    | some item => simp
  | token :: separator :: tokens, index, items => by
    have behind := itemsFrom_eq_ok_iff closing tokens (index + 2)
    obtain ⟨next, rest, split⟩ : ∃ next rest, tokens ++ [.delimiter .rightParen] = next :: rest :=
      List.exists_cons_of_ne_nil (List.append_ne_nil_of_right_ne_nil tokens (by simp))
    show itemsFrom item? index (token :: separator :: (tokens ++ [.delimiter .rightParen]))
      = .ok items ↔ _
    rw [split] at behind ⊢
    rw [itemsFrom, commaSeparated_cons]
    cases item? token with
    | none => simp
    | some item =>
      -- the separator is looked at only when an item stands before it
      by_cases comma : separator = .delimiter .comma
      · simp only [comma, if_true, true_and, Option.some.injEq, exists_eq_left', ← behind]
        cases itemsFrom item? (index + 2) (next :: rest) with
        | error defect => simp [Except.map]
        | ok others => simp [Except.map]
      · simp [comma]

/-- **A parenthesized list is read as one.** -/
theorem listed_eq_ok_iff (closing : item? (.delimiter .rightParen) = none) {tuple : List Token}
    {items : List α} :
    listed item? tuple = .ok items
      ↔ Parenthesized (fun token item => item? token = some item) (.group tuple) items := by
  have unwrap : listed item? tuple = .ok items ↔ tupleItems item? tuple = .ok items := by
    unfold listed
    cases tupleItems item? tuple with
    | error defect => simp [Except.mapError]
    | ok found => simp [Except.mapError]
  rw [unwrap]
  refine ⟨fun h => ?_, fun h => ?_⟩
  · unfold tupleItems at h
    split at h
    case h_1 inside =>
      split at h
      case isTrue closed =>
        obtain ⟨tokens, rfl⟩ := List.getLast?_eq_some_iff.1 closed
        exact .intro ((itemsFrom_eq_ok_iff closing tokens 1 items).1 h)
      case isFalse => exact absurd h nofun
    case h_2 => exact absurd h nofun
  · cases h with
    | @intro tokens _ inside =>
      unfold tupleItems
      dsimp only
      rw [if_pos List.getLast?_concat]
      exact (itemsFrom_eq_ok_iff closing tokens 1 items).2 inside

/-- The columns of a list are distinct if no column is repeated. -/
theorem firstRepeated?_eq_none_iff {items : List String} :
    ∀ {seen : List String}, firstRepeated? seen items = none
      ↔ items.Nodup ∧ ∀ item ∈ items, item ∉ seen := by
  induction items with
  | nil => exact fun {_} => ⟨fun _ => ⟨List.nodup_nil, nofun⟩, fun _ => rfl⟩
  | cons item items ih =>
    intro seen
    rw [firstRepeated?]
    by_cases again : item ∈ seen
    · simp [again]
    · rw [if_neg (by simpa using again), ih, List.nodup_cons]
      constructor
      · rintro ⟨nodup, apart⟩
        refine ⟨⟨fun mem => apart item mem List.mem_cons_self, nodup⟩, ?_⟩
        rintro other (_ | ⟨_, mem⟩)
        · exact again
        · exact fun mem' => apart other mem (List.mem_cons_of_mem item mem')
      · rintro ⟨⟨fresh, nodup⟩, apart⟩
        refine ⟨nodup, fun other mem => ?_⟩
        rw [List.mem_cons, not_or]
        exact ⟨fun same => fresh (same ▸ mem), apart other (List.mem_cons_of_mem item mem)⟩

end Lists

/-! ## Columns and rows -/

/-- A token is a name if it has one. -/
theorem name?_eq_some : (fun token name => Token.name? token = some name) = IsName := by
  ext token name
  refine ⟨fun h => ?_, fun h => ?_⟩
  · cases token with
    | identifier other =>
      obtain rfl : other = name := Option.some.inj h
      exact .intro other
    | keyword _ | delimiter _ | integer _ | real _ | text _ | group _ => exact absurd h nofun
  · cases h with
    | intro => rfl

/-- A token is a value if it has one. -/
theorem ofToken?_eq_some : (fun token cell => Cell.ofToken? token = some cell) = IsCell := by
  ext token cell
  refine ⟨fun h => ?_, fun h => ?_⟩
  · cases token with
    | integer value | real value | text value =>
      obtain rfl := Option.some.inj h
      constructor
    | keyword word =>
      obtain ⟨rfl, rfl⟩ : word = .NULL ∧ Cell.null = cell := by
        simpa [Cell.ofToken?] using h
      exact .null
    | identifier _ | delimiter _ | group _ => exact absurd h nofun
  · cases h <;> rfl

/-- Columns are distinct if none of them is repeated. -/
theorem ensureDistinct_eq_ok_iff {table : String} {columns : List String} :
    ensureDistinct table columns = .ok () ↔ columns.Nodup := by
  have once : firstRepeated? [] columns = none ↔ _ := firstRepeated?_eq_none_iff
  unfold ensureDistinct
  cases found : firstRepeated? [] columns with
  | none => simpa [found] using once
  | some column => simpa [found] using once

/-- **The columns that an insertion names** are a list of distinct names. -/
theorem namedColumns_eq_ok_iff {table : String} {list : List Token} {columns : List String} :
    Insertion.namedColumns table list = .ok columns
      ↔ Parenthesized IsName (.group list) columns ∧ columns.Nodup := by
  rw [← name?_eq_some, ← listed_eq_ok_iff rfl]
  unfold Insertion.namedColumns
  simp only [bind_eq_ok_iff]
  constructor
  · rintro ⟨names, found, _, distinct, same⟩
    obtain rfl : names = columns := Except.ok.inj same
    exact ⟨found, ensureDistinct_eq_ok_iff.1 distinct⟩
  · rintro ⟨found, distinct⟩
    exact ⟨columns, found, (), ensureDistinct_eq_ok_iff.2 distinct, rfl⟩

/-- Columns without names are numbered from zero. -/
theorem numberedColumns_zip (values : List Cell) :
    (numberedColumns values.length).zip values
      = values.zipIdx.map fun (value, index) => ("#" ++ index.repr, value) := by
  unfold numberedColumns
  rw [List.range_eq_range', List.zip_map_left, List.zipIdx_eq_zip_range', ← List.zip_swap,
    List.map_map]
  rfl

/-- **The row that values make** is theirs under the names of the columns. -/
theorem rowOf_eq_ok_iff {table : String} {columns? : Option (List String)} {values : List Cell}
    {row : Row} : rowOf table columns? values = .ok row ↔ IsRow columns? values row := by
  unfold rowOf
  cases columns? with
  | none =>
    dsimp only
    rw [numberedColumns_zip, Except.ok.injEq]
    refine ⟨fun h => h ▸ .numbered values, fun h => ?_⟩
    cases h with
    | numbered => rfl
  | some columns =>
    dsimp only
    by_cases same : columns.length = values.length
    · rw [if_pos same, Except.ok.injEq]
      refine ⟨fun h => h ▸ .named same, fun h => ?_⟩
      cases h with
      | named => rfl
    · rw [if_neg same]
      refine ⟨nofun, fun h => ?_⟩
      cases h with
      | named same' => exact absurd same' same

/-- The values of a tuple. -/
theorem listed_cells_eq_ok_iff {tuple : List Token} {values : List Cell} :
    listed Cell.ofToken? tuple = .ok values ↔ Parenthesized IsCell (.group tuple) values := by
  rw [← ofToken?_eq_some]
  exact listed_eq_ok_iff rfl

/-- **The row that a tuple is.** -/
theorem tupleRow_eq_ok_iff (table : String) {columns? : Option (List String)} {tuple : List Token}
    {row : Row} :
    tupleRow table columns? tuple = .ok row ↔ IsTuple columns? (.group tuple) row := by
  unfold tupleRow
  rw [bind_eq_ok_iff]
  constructor
  · rintro ⟨values, found, row⟩
    exact .intro (listed_cells_eq_ok_iff.1 found) (rowOf_eq_ok_iff.1 row)
  · intro h
    cases h with
    | intro values row => exact ⟨_, listed_cells_eq_ok_iff.2 values, rowOf_eq_ok_iff.2 row⟩

/-- A tuple is a group. -/
theorem Grammar.IsTuple.exists_group {columns? : Option (List String)} {token : Token} {row : Row}
    (h : IsTuple columns? token row) : ∃ tuple, token = .group tuple := by
  cases h with
  | intro listed cells =>
    cases listed with
    | intro inside => exact ⟨_, rfl⟩

/-! ## The statement -/

namespace Insertion

variable {statement : Statement} {table : String} {columns? : Option (List String)}

/-- Reading stops at a token that is no group, and rightly so. -/
theorem readTuples_eq_iff_of_no_group {token : Token} (h : ¬ ∃ tuple, token = .group tuple)
    (rest : List Token) (before rows : List Row) :
    readTuples statement table columns? before (token :: rest) = (rows, none)
      ↔ ∃ more, CommaSeparated (IsTuple columns?) (token :: rest) more
        ∧ before.reverse ++ more = rows := by
  rw [readTuples]
  · refine ⟨nofun, ?_⟩
    rintro ⟨more, list, -⟩
    cases list with
    | last here | cons here => exact absurd here.exists_group h
  · exact fun tuple same => h ⟨tuple, same⟩

/-- **The tuples are read as a list**, and nothing is wrong behind it. -/
theorem readTuples_eq_iff : ∀ (tokens : List Token) (before rows : List Row),
    readTuples statement table columns? before tokens = (rows, none)
      ↔ ∃ more, CommaSeparated (IsTuple columns?) tokens more ∧ before.reverse ++ more = rows
  | [], before, rows => by
    rw [readTuples]
    refine ⟨nofun, ?_⟩
    rintro ⟨more, none, -⟩
    exact absurd none (not_commaSeparated_nil more)
  | [token], before, rows => by
    by_cases group : ∃ tuple, token = .group tuple
    · obtain ⟨tuple, rfl⟩ := group
      rw [readTuples]
      simp only [commaSeparated_singleton, ← tupleRow_eq_ok_iff table]
      cases tupleRow table columns? tuple with
      | error fault => simp
      | ok row => simp
    · exact readTuples_eq_iff_of_no_group group [] before rows
  | token :: separator :: tokens, before, rows => by
    by_cases group : ∃ tuple, token = .group tuple
    · obtain ⟨tuple, rfl⟩ := group
      rw [readTuples]
      simp only [commaSeparated_cons, ← tupleRow_eq_ok_iff table]
      cases tupleRow table columns? tuple with
      | error fault => simp
      | ok row =>
        by_cases comma : separator = .delimiter .comma
        · simp [comma, readTuples_eq_iff tokens (row :: before) rows]
        · simp [comma]
    · exact readTuples_eq_iff_of_no_group group (separator :: tokens) before rows

theorem ofTuples_eq_iff {tokens : List Token} {table' : String} {rows : List Row} :
    ofTuples statement table columns? tokens = { table := table', rows, defect? := none }
      ↔ table = table' ∧ CommaSeparated (IsTuple columns?) tokens rows := by
  have read : readTuples statement table columns? [] tokens = (rows, none) ↔ _ :=
    readTuples_eq_iff tokens [] rows
  unfold ofTuples
  rcases found : readTuples statement table columns? [] tokens with ⟨rows', defect?⟩
  rw [found, Prod.mk.injEq] at read
  simp only [List.reverse_nil, List.nil_append, exists_eq_right] at read
  rw [Insertion.mk.injEq, ← read]

variable {selection : Selection} {catalog : Catalog} {rows : List Row}

/-- **What is read as an insertion** names a chosen table, and perhaps columns, and
`VALUES` in front of its tuples – whatever is wrong with those. -/
theorem exists_of_ofStatement {insertion : Insertion}
    (h : ofStatement statement selection catalog = .ok (some insertion)) :
    ∃ verb table list tuples columns?, selection.contains table = true
      ∧ Columns catalog table list columns?
      ∧ statement.tokens
        = verb :: .keyword .INTO :: .identifier table :: (list ++ .keyword .VALUES :: tuples)
      ∧ ofTuples statement table columns? tuples = insertion := by
  -- one split for each token that is looked at: it is as the rules want it, or a fault
  unfold ofStatement at h
  split at h
  case h_2 => exact absurd h nofun
  case h_1 verb into named third fourth rest split =>
    split at h
    case isTrue => exact absurd h nofun
    case isFalse keyword =>
      obtain rfl := not_not.1 keyword
      split at h
      case h_2 => exact absurd h nofun
      case h_1 name =>
        split at h
        case isFalse => exact absurd (Except.ok.inj h) nofun
        case isTrue chosen =>
          split at h
          case h_1 list =>
            split at h
            case h_1 => exact absurd h nofun
            case h_2 columns named =>
              split at h
              case isFalse => exact absurd h nofun
              case isTrue values =>
                obtain ⟨listed, distinct⟩ := namedColumns_eq_ok_iff.1 named
                rw [values] at split
                exact ⟨verb, name, [.group list], rest, some columns, chosen,
                  .named listed distinct, split, Option.some.inj (Except.ok.inj h)⟩
          case h_2 =>
            split at h
            case isFalse => exact absurd h nofun
            case isTrue values =>
              rw [values] at split
              exact ⟨verb, name, [], fourth :: rest, catalog.fields? name, chosen, .known, split,
                Option.some.inj (Except.ok.inj h)⟩

/-- **A statement with tuples is read as an insertion**, if its table is chosen, whatever is
wrong with the tuples. -/
theorem ofStatement_of_columns {verb : Token} {list tuples : List Token}
    {columns? : Option (List String)}
    (tokens : statement.tokens
      = verb :: .keyword .INTO :: .identifier table :: (list ++ .keyword .VALUES :: tuples))
    (columns : Columns catalog table list columns?) (tuple : tuples ≠ []) :
    ofStatement statement selection catalog
      = .ok (if selection.contains table then
          some (ofTuples statement table columns? tuples) else none) := by
  -- the first tuple is among the five tokens that every insertion has
  obtain ⟨first, rest, rfl⟩ := List.exists_cons_of_ne_nil tuple
  unfold ofStatement
  rw [tokens]
  cases columns with
  | known => by_cases chosen : selection.contains table <;> simp [chosen]
  | @named token columns listed distinct =>
    obtain ⟨list, rfl⟩ : ∃ list, token = .group list := by
      cases listed with
      | intro inside => exact ⟨_, rfl⟩
    have named : namedColumns table list = .ok columns :=
      namedColumns_eq_ok_iff.2 ⟨listed, distinct⟩
    by_cases chosen : selection.contains table <;> simp [chosen, named]

/-- What is read as an insertion with nothing wrong in it is one. -/
theorem isInsertion_of_ofStatement
    (h : ofStatement statement selection catalog
      = .ok (some { table, rows, defect? := none })) :
    IsInsertion selection catalog statement.tokens table rows := by
  obtain ⟨verb, name, list, tuples, columns?, chosen, columns, split, read⟩ :=
    exists_of_ofStatement h
  obtain ⟨rfl, values⟩ := ofTuples_eq_iff.1 read
  rw [split]
  exact .intro chosen columns values

/-- An insertion is read as one. -/
theorem ofStatement_of_isInsertion
    (h : IsInsertion selection catalog statement.tokens table rows) :
    ofStatement statement selection catalog
      = .ok (some { table, rows, defect? := none }) := by
  generalize split : statement.tokens = tokens at h
  cases h with
  | @intro verb _ list tuples columns? _ chosen columns values =>
    have read : ofTuples statement table columns? tuples = _ := ofTuples_eq_iff.2 ⟨rfl, values⟩
    have tuple : tuples ≠ [] := by
      rintro rfl
      exact not_commaSeparated_nil rows values
    rw [ofStatement_of_columns split columns tuple, if_pos chosen, read]

/-- **A statement is an insertion**, with nothing wrong in it, exactly by the
rules for insertions. -/
theorem ofStatement_eq_ok_iff :
    ofStatement statement selection catalog = .ok (some { table, rows, defect? := none })
      ↔ IsInsertion selection catalog statement.tokens table rows :=
  ⟨isInsertion_of_ofStatement, ofStatement_of_isInsertion⟩

end Insertion

/-! ## Handing over the rows -/

namespace Sink

variable {σ ε : Type}

/-- **A sink that refuses nothing takes all rows**, one after the other. -/
theorem takeRows_of_accepts {sink : Sink σ ε} {take : String → Row → σ → σ}
    (accepts : ∀ table row state, sink.onRow table row state = (.ok (), take table row state))
    (table : String) (rows : List Row) (state : σ) :
    sink.takeRows table rows state
      = (.ok (), rows.foldl (fun state row => take table row state) state) := by
  induction rows generalizing state with
  | nil => rfl
  | cons row rows ih =>
    rw [takeRows, accepts]
    exact ih _

/-- **An insertion is carried out completely exactly if it is one**, by the
rules for insertions. Then a sink that refuses nothing has taken its rows, in
order and for the table as the statement names it, and is told their number. -/
theorem takeInsertion_eq_ok_iff (ofFault : Fault → ε) (take : String → Row → σ → σ)
    (statement : Statement) (selection : Selection) (catalog : Catalog) (count : Nat)
    (before after : σ) :
    (ofRows ofFault fun table row state => (.ok (), take table row state)).takeInsertion statement
        selection catalog before = (.ok (some count), after)
      ↔ ∃ table rows, IsInsertion selection catalog statement.tokens table rows
        ∧ rows.length = count
        ∧ rows.foldl (fun state row => take table row state) before = after := by
  have accepts : ∀ table row state, (ofRows ofFault fun table row state =>
      (Except.ok (), take table row state)).onRow table row state
        = (.ok (), take table row state) := fun _ _ _ => rfl
  simp only [← Insertion.ofStatement_eq_ok_iff]
  unfold takeInsertion
  simp only [takeRows_of_accepts accepts]
  cases Insertion.ofStatement statement selection catalog with
  | error fault => simp
  | ok found =>
    cases found with
    | none => simp
    | some insertion =>
      obtain ⟨table, rows, defect?⟩ := insertion
      cases defect? with
      | some fault => simp
      | none => simp

end Sink

end TableDump
