import Mathlib
import TableDump.Proofs.Insertion

/-!
# The first thing that is wrong with a list

The columns of an insertion and the values of a tuple are parenthesized lists, and such a
list is read by the indices of its tokens. From 1 on, every other token should be an item,
and in front of each item but the first there should be a comma. The closing parenthesis
is not treated as what it is: if the number of tokens is odd nobody looks at it, and if the
number is even it stands where an item should stand, and is none.

Still exactly the lists are read, and otherwise what is reported is the first thing that
is wrong, with its index (`listed_cells_names`). Three mistakes are so never overlooked:
there is no item at all, or none behind the last comma, or no comma between two of them.

Reading by indices (`itemsByIndex`) is written out here with the possibility that an index
is out of range. It comes to the same as the recursion over the tokens, so none is.
-/

namespace TableDump

open Grammar

variable {α : Type}

/-! ## By indices -/

section

variable (item? : Token → Option α) (tuple : List Token)

/-- **The items at every other index from `index` on.** There is no answer if a token is
asked for that is not there. -/
def itemsByIndex (index : Nat) : Option (Except TupleDefect (List α)) :=
  if index < tuple.length then
    match if 1 < index then tuple[index - 1]? else some (.delimiter .comma) with
    | none => none
    | some separator =>
      if separator = .delimiter .comma then
        match tuple[index]? with
        | none => none
        | some token =>
          match item? token with
          | none => some (.error (.badItem index))
          | some item => (itemsByIndex (index + 2)).map (Except.map (item :: ·))
      else some (.error (.badSeparator index))
  else some (.ok [])
termination_by tuple.length - index

/-- The items of a list, if it has parentheses at either end. -/
def tupleByIndex : Option (Except TupleDefect (List α)) :=
  if tuple.length < 2 then some (.error .unbounded)
  else
    match tuple[0]?, tuple[tuple.length - 1]? with
    | some first, some last =>
      if first = .delimiter .leftParen ∧ last = .delimiter .rightParen then
        itemsByIndex item? tuple 1
      else some (.error .unbounded)
    | _, _ => none

end

namespace Grammar

/-- **A list with parentheses at either end**, which are two tokens. -/
def Enclosed (tuple : List Token) : Prop :=
  ∃ inside, tuple = .delimiter .leftParen :: (inside ++ [.delimiter .rightParen])

section

variable (item? : Token → Option α) (tuple : List Token) (index : Nat)

/-- **An item stands at an index**, and a comma in front of it if it is not the first. -/
structure RightAt : Prop where
  separated : 1 < index → tuple[index - 1]? = some (.delimiter .comma)
  item : ∃ token item, tuple[index]? = some token ∧ item? token = some item

/-- **What is wrong at an index**, and how it is said: something other than a comma stands
in front of it, or else what stands there is no item. -/
inductive WrongAt : TupleDefect → (detail : String) → Prop where
  | separator {token : Token} (later : 1 < index) (here : tuple[index - 1]? = some token)
      (other : token ≠ .delimiter .comma) :
      WrongAt (.badSeparator index) ("bad delimiter at index #" ++ index.repr)
  | item {token : Token} (separated : 1 < index → tuple[index - 1]? = some (.delimiter .comma))
      (here : tuple[index]? = some token) (other : item? token = none) :
      WrongAt (.badItem index) ("bad value at index #" ++ index.repr)

end

/-- **The first index from `start` on where something is wrong**, among those where items
should stand. -/
structure FirstWrong (item? : Token → Option α) (tuple : List Token) (start index : Nat)
    (defect : TupleDefect) (detail : String) : Prop where
  le : start ≤ index
  odd : Odd index
  lt_length : index < tuple.length
  /-- All before are items, with commas between them. -/
  before : ∀ earlier, start ≤ earlier → Odd earlier → earlier < index →
    RightAt item? tuple earlier
  wrong : WrongAt item? tuple index defect detail

variable {item? : Token → Option α} {tuple : List Token} {index start : Nat}
  {defect defect' : TupleDefect} {detail detail' : String}

theorem WrongAt.not_rightAt (h : WrongAt item? tuple index defect detail) :
    ¬ RightAt item? tuple index := by
  rintro ⟨separated, token, item, here, accepted⟩
  cases h with
  | separator later here' other =>
    exact other (Option.some.inj (here'.symm.trans (separated later)))
  | item _ here' other =>
    obtain rfl := Option.some.inj (here'.symm.trans here)
    simp [other] at accepted

/-- Only one thing is wrong at an index. -/
theorem WrongAt.unique (h : WrongAt item? tuple index defect detail)
    (h' : WrongAt item? tuple index defect' detail') : defect = defect' ∧ detail = detail' := by
  cases h with
  | separator later here other =>
    cases h' with
    | separator => exact ⟨rfl, rfl⟩
    | item separated' =>
      exact absurd (Option.some.inj (here.symm.trans (separated' later))) other
  | item separated =>
    cases h' with
    | separator later' here' other' =>
      exact absurd (Option.some.inj (here'.symm.trans (separated later'))) other'
    | item => exact ⟨rfl, rfl⟩

/-- Each index is right or wrong. -/
theorem rightAt_or_wrongAt (item? : Token → Option α) (inside : index < tuple.length) :
    RightAt item? tuple index ∨ ∃ defect detail, WrongAt item? tuple index defect detail := by
  by_cases separated : 1 < index → tuple[index - 1]? = some (.delimiter .comma)
  · have here : tuple[index]? = some tuple[index] := List.getElem?_eq_getElem inside
    rcases accepted : item? tuple[index] with _ | item
    · exact .inr ⟨_, _, .item separated here accepted⟩
    · exact .inl ⟨separated, _, item, here, accepted⟩
  · obtain ⟨later, other⟩ := Classical.not_imp.1 separated
    have here : tuple[index - 1]? = some tuple[index - 1] := List.getElem?_eq_getElem (by omega)
    exact .inr ⟨_, _, .separator later here fun same => other (here.trans (congrArg some same))⟩

end Grammar

variable {item? : Token → Option α} {tuple : List Token} {index start : Nat}
  {defect : TupleDefect} {detail : String}

/-- In front of the first item a comma is taken for granted. -/
theorem separator_eq (separated : 1 < index → tuple[index - 1]? = some (.delimiter .comma)) :
    (if 1 < index then tuple[index - 1]? else some (.delimiter .comma))
      = some (.delimiter .comma) := by
  split
  · exact separated ‹_›
  · rfl

/-- Where something is wrong the loop ends, and says so. -/
theorem itemsByIndex_of_wrongAt (inside : index < tuple.length)
    (h : WrongAt item? tuple index defect detail) :
    itemsByIndex item? tuple index = some (.error defect) := by
  rw [itemsByIndex, if_pos inside]
  cases h with
  | separator later here other =>
    rw [if_pos later, here]
    exact if_neg other
  | item separated here other =>
    rw [separator_eq separated]
    dsimp only
    rw [if_pos rfl, here]
    dsimp only
    rw [other]

/-- Otherwise it has one item more, and goes on. -/
theorem itemsByIndex_of_item {token : Token} {item : α}
    (separated : 1 < index → tuple[index - 1]? = some (.delimiter .comma))
    (here : tuple[index]? = some token) (accepted : item? token = some item) :
    itemsByIndex item? tuple index
      = (itemsByIndex item? tuple (index + 2)).map (Except.map (item :: ·)) := by
  rw [itemsByIndex, if_pos (List.getElem?_eq_some_iff.1 here).1, separator_eq separated]
  dsimp only
  rw [if_pos rfl, here]
  dsimp only
  rw [accepted]

/-- Behind the last token it ends. -/
theorem itemsByIndex_of_length_le (h : tuple.length ≤ index) :
    itemsByIndex item? tuple index = some (.ok []) := by
  rw [itemsByIndex, if_neg (Nat.not_lt.2 h)]

/-- **The loop over the indices is the recursion over the tokens.** So no index of it is
out of range. -/
theorem itemsByIndex_eq (item? : Token → Option α) (tuple : List Token) (index : Nat)
    (separated : 1 < index → tuple[index - 1]? = some (.delimiter .comma)) :
    itemsByIndex item? tuple index = some (itemsFrom item? index (tuple.drop index)) := by
  rcases split : tuple.drop index with _ | ⟨token, rest⟩
  · rw [itemsByIndex_of_length_le (List.drop_eq_nil_iff.1 split), itemsFrom]
  · have there : ∀ offset, tuple[index + offset]? = (token :: rest)[offset]? := by
      intro offset
      rw [← split, List.getElem?_drop]
    have length_eq : tuple.length = index + (rest.length + 1) := by
      have := congrArg List.length split
      rw [List.length_drop, List.length_cons] at this
      omega
    have here : tuple[index]? = some token := there 0
    rcases accepted : item? token with _ | item
    · rw [itemsByIndex_of_wrongAt (by omega) (.item separated here accepted)]
      rcases rest with _ | ⟨separator, _ | ⟨next, rest⟩⟩ <;> simp [itemsFrom, accepted]
    · rw [itemsByIndex_of_item separated here accepted]
      rcases rest with _ | ⟨separator, _ | ⟨next, rest⟩⟩
      -- what closes the list is not looked at behind an item
      · rw [itemsByIndex_of_length_le (by simp [length_eq])]
        simp [itemsFrom, accepted, Except.map]
      · rw [itemsByIndex_of_length_le (by simp [length_eq])]
        simp [itemsFrom, accepted, Except.map]
      · have between : tuple[index + 2 - 1]? = some separator := there 1
        rw [itemsFrom, accepted]
        dsimp only
        by_cases comma : separator = .delimiter .comma
        · rw [itemsByIndex_eq item? tuple (index + 2) fun _ => between.trans (congrArg some comma),
            ← List.drop_drop, split, if_pos comma]
          rfl
        · rw [itemsByIndex_of_wrongAt (by simp [length_eq])
            (.separator (by omega) between comma), if_neg comma]
          rfl
termination_by tuple.length - index

/-- The whole list is read by its indices. -/
theorem tupleByIndex_eq (item? : Token → Option α) (tuple : List Token) :
    tupleByIndex item? tuple = some (tupleItems item? tuple) := by
  rcases tuple with _ | ⟨first, _ | ⟨second, rest⟩⟩
  · rfl
  · rw [tupleByIndex, if_pos (by simp)]
    unfold tupleItems
    split
    case h_1 inside single =>
      obtain rfl := (List.cons.inj single).2
      rfl
    case h_2 => rfl
  · obtain ⟨last, inside_last⟩ : ∃ last, (second :: rest).getLast? = some last :=
      ⟨_, List.getLast?_eq_some_getLast (List.cons_ne_nil _ _)⟩
    have whole_last : (first :: second :: rest)[(first :: second :: rest).length - 1]?
        = some last := by
      rw [← List.getLast?_eq_getElem?, List.getLast?_cons_cons, inside_last]
    rw [tupleByIndex, if_neg (by simp), whole_last]
    show (if _ then _ else _) = _
    by_cases opened : first = .delimiter .leftParen
    · subst opened
      rw [tupleItems, inside_last]
      by_cases closed : last = .delimiter .rightParen
      · rw [if_pos ⟨rfl, closed⟩, if_pos (congrArg some closed), itemsByIndex_eq _ _ 1 nofun]
        rfl
      · rw [if_neg fun both => closed both.2, if_neg fun same => closed (Option.some.inj same)]
    · rw [if_neg fun both => opened both.1, tupleItems]
      rintro _ ⟨⟩
      exact opened rfl

/-- **The loop says what is wrong first.** -/
theorem itemsByIndex_eq_error_iff (item? : Token → Option α) (tuple : List Token)
    (defect : TupleDefect) (start : Nat) (odd : Odd start) :
    itemsByIndex item? tuple start = some (.error defect)
      ↔ ∃ index detail, FirstWrong item? tuple start index defect detail := by
  rcases Nat.lt_or_ge start tuple.length with inside | behind
  · rcases rightAt_or_wrongAt item? inside with right | ⟨other, words, wrong⟩
    · -- what is wrong first is further on, at an index that is odd again
      have further :=
        itemsByIndex_eq_error_iff item? tuple defect (start + 2) (odd.add_even even_two)
      obtain ⟨token, item, here, accepted⟩ := right.item
      have same : itemsByIndex item? tuple start = some (.error defect)
          ↔ itemsByIndex item? tuple (start + 2) = some (.error defect) := by
        rw [itemsByIndex_of_item right.separated here accepted]
        rcases itemsByIndex item? tuple (start + 2) with _ | _ | _ <;> simp [Except.map]
      rw [same, further]
      constructor
      · rintro ⟨index, detail, first⟩
        refine ⟨index, detail, (Nat.le_add_right _ _).trans first.le, first.odd, first.lt_length,
          fun earlier le odd' lt => ?_, first.wrong⟩
        rcases Nat.eq_or_lt_of_le le with rfl | later
        · exact right
        · exact first.before earlier (by grind) odd' lt
      · rintro ⟨index, detail, first⟩
        refine ⟨index, detail, ?_, first.odd, first.lt_length,
          fun earlier le => first.before earlier (by omega), first.wrong⟩
        have apart : index ≠ start := by
          rintro rfl
          exact first.wrong.not_rightAt right
        have := first.le
        have := first.odd
        grind
    · rw [itemsByIndex_of_wrongAt inside wrong, Option.some.injEq, Except.error.injEq]
      constructor
      · rintro rfl
        exact ⟨start, words, le_rfl, odd, inside, fun earlier le _ lt => by omega, wrong⟩
      · rintro ⟨index, detail, first⟩
        obtain rfl : index = start := by
          by_contra apart
          exact wrong.not_rightAt (first.before start le_rfl odd
            (lt_of_le_of_ne first.le (Ne.symm apart)))
        exact (wrong.unique first.wrong).1
  · rw [itemsByIndex_of_length_le behind]
    refine ⟨nofun, ?_⟩
    rintro ⟨index, detail, first⟩
    have := first.le
    have := first.lt_length
    omega
termination_by tuple.length - start

/-- What is wrong anywhere is wrong somewhere first. -/
theorem Grammar.exists_firstWrong (odd : Odd index) (inside : index < tuple.length)
    (wrong : ¬ RightAt item? tuple index) :
    ∃ first defect detail, FirstWrong item? tuple 1 first defect detail := by
  classical
  have some_wrong : ∃ index, Odd index ∧ index < tuple.length ∧ ¬ RightAt item? tuple index :=
    ⟨index, odd, inside, wrong⟩
  obtain ⟨odd', inside', wrong'⟩ := Nat.find_spec some_wrong
  obtain ⟨defect, detail, how⟩ := (rightAt_or_wrongAt item? inside').resolve_left wrong'
  refine ⟨Nat.find some_wrong, defect, detail, odd'.pos, odd', inside',
    fun earlier _ odd'' lt => ?_, how⟩
  by_contra wrong''
  exact Nat.find_min some_wrong lt ⟨odd'', lt.trans inside', wrong''⟩

/-! ## Lists -/

/-- **How lists are read**, by what an item is. -/
structure ReadsLists (item? : Token → Option α) : Prop where
  /-- The items of a list are given exactly if it is one. -/
  ok_iff : ∀ tuple items, listed item? tuple = .ok items
    ↔ ∃ inside, tuple = .delimiter .leftParen :: (inside ++ [.delimiter .rightParen])
      ∧ CommaSeparated (fun token item => item? token = some item) inside items
  /-- Without parentheses at either end that is what is wrong. -/
  unbounded : ∀ tuple, ¬ Enclosed tuple → ∃ fault, listed item? tuple = .error fault
    ∧ fault = .malformedTuple (Token.renderAll tuple) .unbounded
    ∧ fault.phrase = "failed to parse tuple (" ++ Token.renderAll tuple ++ "), "
        ++ "bad opening or closing delimiter"
  /-- Otherwise it is the first thing that is wrong among the tokens, at the least odd index
  at which anything is. -/
  error_iff : ∀ tuple, Enclosed tuple → ∀ fault, listed item? tuple = .error fault
    ↔ ∃ index defect detail, FirstWrong item? tuple 1 index defect detail
      ∧ fault = .malformedTuple (Token.renderAll tuple) defect
      ∧ fault.phrase = "failed to parse tuple (" ++ Token.renderAll tuple ++ "), " ++ detail
  /-- A list without items is refused. -/
  empty : ∃ fault, listed item? [.delimiter .leftParen, .delimiter .rightParen] = .error fault
  /-- So is one with a comma at its end. -/
  trailing : ∀ front, ∃ fault,
    listed item? (front ++ [.delimiter .comma, .delimiter .rightParen]) = .error fault
  /-- So is one with two items side by side. -/
  adjacent : ∀ front first second back, (item? first).isSome → (item? second).isSome →
    ∃ fault, listed item? (front ++ first :: second :: back) = .error fault
  /-- No index is out of range. -/
  inRange : ∀ tuple, tupleByIndex item? tuple = some (tupleItems item? tuple)

/-- A list in parentheses is read by the loop. -/
theorem Grammar.Enclosed.itemsByIndex_eq (h : Enclosed tuple) (item? : Token → Option α) :
    itemsByIndex item? tuple 1 = some (tupleItems item? tuple) := by
  obtain ⟨inside, rfl⟩ := h
  rw [TableDump.itemsByIndex_eq item? _ 1 nofun, tupleItems, if_pos List.getLast?_concat]
  rfl

/-- What is wrong with a list is said with its text. -/
theorem listed_eq_error_iff {fault : ShapeFault} :
    listed item? tuple = .error fault
      ↔ ∃ defect, tupleItems item? tuple = .error defect
        ∧ fault = .malformedTuple (Token.renderAll tuple) defect := by
  unfold listed
  rcases tupleItems item? tuple with defect | items
  · simp [Except.mapError, eq_comm]
  · simp [Except.mapError]

/-- A list that is not in parentheses is not taken apart. -/
theorem tupleItems_of_not_enclosed (h : ¬ Enclosed tuple) :
    tupleItems item? tuple = .error .unbounded := by
  unfold tupleItems
  split
  case h_1 inside =>
    refine if_neg fun closed => h ?_
    obtain ⟨front, rfl⟩ := List.getLast?_eq_some_iff.1 closed
    exact ⟨front, rfl⟩
  case h_2 => rfl

/-- How a defect is said. -/
theorem Grammar.WrongAt.phrase_eq (h : WrongAt item? tuple index defect detail) :
    defect.phrase = detail := by
  cases h <;> rfl

/-- **Something is wrong with a list** if something is wrong anywhere. -/
theorem exists_error_of_not_rightAt
    (h : Enclosed tuple → ∃ index, Odd index ∧ index < tuple.length ∧ ¬ RightAt item? tuple index) :
    ∃ fault, listed item? tuple = .error fault := by
  by_cases enclosed : Enclosed tuple
  · obtain ⟨index, odd, inside, wrong⟩ := h enclosed
    obtain ⟨first, defect, detail, found⟩ := exists_firstWrong odd inside wrong
    have read := (itemsByIndex_eq_error_iff item? tuple defect 1 odd_one).2 ⟨first, detail, found⟩
    rw [enclosed.itemsByIndex_eq] at read
    exact ⟨_, listed_eq_error_iff.2 ⟨defect, Option.some.inj read, rfl⟩⟩
  · exact ⟨_, listed_eq_error_iff.2 ⟨_, tupleItems_of_not_enclosed enclosed, rfl⟩⟩

section

variable (marks : ∀ mark, item? (.delimiter mark) = none)
include marks

/-- A mark does not stand where an item should stand. -/
theorem Grammar.not_rightAt_of_mark {mark : Delimiter}
    (here : tuple[index]? = some (.delimiter mark)) : ¬ RightAt item? tuple index := by
  rintro ⟨-, token, item, here', accepted⟩
  obtain rfl := Option.some.inj (here.symm.trans here')
  simp [marks] at accepted

/-- What is an item is no mark. -/
theorem ne_mark {token : Token} (accepted : (item? token).isSome) (mark : Delimiter) :
    token ≠ .delimiter mark := by
  rintro rfl
  simp [marks] at accepted

/-- **Behind the last comma an item is missing**: that comma or what closes the list stands
where it should stand. -/
theorem exists_error_of_trailing (front : List Token) :
    ∃ fault, listed item? (front ++ [.delimiter .comma, .delimiter .rightParen])
      = .error fault := by
  have comma : (front ++ [.delimiter .comma, .delimiter .rightParen])[front.length]?
      = some (Token.delimiter .comma) := by simp
  have closing : (front ++ [.delimiter .comma, .delimiter .rightParen])[front.length + 1]?
      = some (Token.delimiter .rightParen) := by simp
  refine exists_error_of_not_rightAt fun _ => ?_
  rcases Nat.even_or_odd front.length with even | odd
  · exact ⟨front.length + 1, even.add_one, by simp, not_rightAt_of_mark marks closing⟩
  · exact ⟨front.length, odd, by simp, not_rightAt_of_mark marks comma⟩

/-- **Between two items a comma is missing**: one of the two stands where it should stand. -/
theorem exists_error_of_adjacent (front back : List Token) {first second : Token}
    (accepted : (item? first).isSome) (accepted' : (item? second).isSome) :
    ∃ fault, listed item? (front ++ first :: second :: back) = .error fault := by
  refine exists_error_of_not_rightAt fun enclosed => ?_
  have here : (front ++ first :: second :: back)[front.length]? = some first := by simp
  have next : (front ++ first :: second :: back)[front.length + 1]? = some second := by simp
  obtain ⟨inside, split⟩ := enclosed
  rcases Nat.even_or_odd front.length with even | odd
  · -- the first one, since it is not what opens the list
    refine ⟨front.length + 1, even.add_one, by simp, fun right => ?_⟩
    have front_ne : front ≠ [] := by
      rintro rfl
      exact ne_mark marks accepted _ (List.cons.inj split).1
    have separated := right.separated (by simpa using List.length_pos_of_ne_nil front_ne)
    exact ne_mark marks accepted _ (Option.some.inj (here.symm.trans separated))
  · -- the second one, since it is not what closes the list
    have back_ne : back ≠ [] := by
      rintro rfl
      have closing : (front ++ [first, second]).getLast? = some (.delimiter .rightParen) := by
        rw [split, ← List.cons_append, List.getLast?_concat]
      rw [List.getLast?_append_cons, List.getLast?_cons_cons] at closing
      exact ne_mark marks accepted' _ (Option.some.inj closing)
    have := List.length_pos_of_ne_nil back_ne
    refine ⟨front.length + 2, odd.add_even even_two, by simp; omega, fun right => ?_⟩
    have separated := right.separated (by omega)
    exact ne_mark marks accepted' _ (Option.some.inj (next.symm.trans separated))

/-- **Lists are read so, if no mark is an item.** -/
theorem readsLists_of_marks : ReadsLists item? where
  ok_iff tuple items := by
    rw [listed_eq_ok_iff (marks .rightParen)]
    constructor
    · intro h
      cases h with
      | @intro inside _ separated => exact ⟨inside, rfl, separated⟩
    · rintro ⟨inside, rfl, separated⟩
      exact .intro separated
  unbounded tuple h :=
    ⟨_, listed_eq_error_iff.2 ⟨_, tupleItems_of_not_enclosed h, rfl⟩, rfl, rfl⟩
  error_iff tuple enclosed fault := by
    have read := enclosed.itemsByIndex_eq item?
    rw [listed_eq_error_iff]
    constructor
    · rintro ⟨defect, wrong, rfl⟩
      obtain ⟨index, detail, first⟩ :=
        (itemsByIndex_eq_error_iff item? tuple defect 1 odd_one).1
          (read.trans (congrArg some wrong))
      exact ⟨index, defect, detail, first, rfl, by rw [← first.wrong.phrase_eq]; rfl⟩
    · rintro ⟨index, defect, detail, first, rfl, -⟩
      have wrong :=
        (itemsByIndex_eq_error_iff item? tuple defect 1 odd_one).2 ⟨index, detail, first⟩
      exact ⟨defect, Option.some.inj (read.symm.trans wrong), rfl⟩
  empty := exists_error_of_not_rightAt fun _ =>
    ⟨1, odd_one, Nat.one_lt_two, not_rightAt_of_mark marks rfl⟩
  trailing := exists_error_of_trailing marks
  adjacent front _ _ back := exists_error_of_adjacent marks front back
  inRange := tupleByIndex_eq item?

end

/-- Behind the last comma the closing parenthesis stands where an item should stand. -/
example :
    listed Cell.ofToken? [.delimiter .leftParen, .integer 1, .delimiter .comma,
        .delimiter .rightParen]
      = .error (.malformedTuple "( 1 , )" (.badItem 3)) := by
  cbv

/-- **Tuples of values and lists of columns are read as lists**, and of those that are none
the first thing that is wrong is reported. -/
theorem listed_cells_names : ReadsLists Cell.ofToken? ∧ ReadsLists Token.name? :=
  ⟨readsLists_of_marks fun _ => rfl, readsLists_of_marks fun _ => rfl⟩

end TableDump
