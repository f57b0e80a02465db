import Mathlib
import TableDump.Cursor.InMemory
import TableDump.Proofs.Scan
import TableDump.Proofs.Search

/-!
# What a scan recognizes

A reading of bytes in memory takes some of them and leaves the rest. Where the
cursor stands only matters to the faults, so a place in the input is given by
the bytes on either side of it (`InMemory.between`), and each question has one
equation that says what it does there.

A scan *recognizes* a relation between a value, the bytes taken for it and the
bytes that follow, if it succeeds exactly where the relation holds
(`Scan.Recognizes`). The bytes that follow are part of the relation, because
what takes as much as it can depends on what it leaves. That the scan gives
nothing but what is derived, and that it gives all of it, is one statement,
which is closed under sequence: what grammars are built from is then proved of
both directions at once.
-/

namespace TableDump

variable {α β : Type}

/-! ## Places in the input -/

namespace InMemory

/-- **The place between two byte strings.** -/
def between (before input : Bytes) : InMemory :=
  { bytes := (before ++ input).toArray, position := before.length }

variable {before input : Bytes}

@[simp] theorem remaining_between : (between before input).remaining = input.length := by
  simp [between, remaining]

@[simp] theorem left_between : Cursor.left (between before input) = input.length :=
  remaining_between

/-- A place has only one position. -/
theorem between_inj {before' input' : Bytes}
    (same : between before input = between before' input') : before = before' ∧ input = input' := by
  obtain ⟨bytes_eq, length_eq⟩ := InMemory.mk.inj same
  exact List.append_inj (List.toArray_inj bytes_eq) length_eq

/-- A byte in front of the place. -/
theorem getElem?_between (offset : Nat) :
    (between before input).bytes[(between before input).position + offset]? = input[offset]? := by
  show (before ++ input).toArray[before.length + offset]? = input[offset]?
  rw [List.getElem?_toArray, List.getElem?_append_right (Nat.le_add_right _ _),
    Nat.add_sub_cancel_left]

/-- A piece of the bytes in front of the place. -/
theorem extract_between (start stop : Nat) :
    ((between before input).bytes.extract (before.length + start) (before.length + stop)).toList
      = (input.take stop).drop start := by
  show ((before ++ input).toArray.extract (before.length + start) (before.length + stop)).toList = _
  rw [Array.toList_extract, List.extract_eq_take_drop, List.drop_append, List.drop_take]
  simp [List.drop_eq_nil_of_le, Nat.add_sub_add_left]

/-- The first spot behind an offset. -/
theorem isFirst_between {spot : Bytes → Prop} {start index : Nat} :
    IsFirst spot (between before input).bytes.toList (before.length + start) index
      ↔ ∃ offset, index = before.length + offset ∧ IsFirst spot input start offset := by
  have drop_eq : ∀ offset, (between before input).bytes.toList.drop (before.length + offset)
      = input.drop offset := by
    intro offset
    show (before ++ input).drop (before.length + offset) = input.drop offset
    rw [List.drop_append, List.drop_eq_nil_of_le (Nat.le_add_right _ _), Nat.add_sub_cancel_left,
      List.nil_append]
  constructor
  · rintro ⟨le, holds, least⟩
    obtain ⟨offset, rfl⟩ := Nat.exists_eq_add_of_le ((Nat.le_add_right _ _).trans le)
    refine ⟨offset, rfl, by omega, by rwa [drop_eq] at holds, fun earlier hb hlt hspot => ?_⟩
    exact least (before.length + earlier) (by omega) (by omega) (by rwa [drop_eq])
  · rintro ⟨offset, rfl, le, holds, least⟩
    refine ⟨by omega, by rwa [drop_eq], fun earlier hb hlt hspot => ?_⟩
    obtain ⟨earlier, rfl⟩ := Nat.exists_eq_add_of_le ((Nat.le_add_right _ _).trans hb)
    exact least earlier (by omega) (by omega) (by rwa [drop_eq] at hspot)

end InMemory

open InMemory (between)

/-! ## The questions -/

namespace Scan

variable {before input : Bytes}

@[simp] theorem run_peek (offset : Nat) :
    (peek offset).run (between before input) = (.ok input[offset]?, between before input) := by
  rw [peek, run_ask]
  exact congrArg (fun byte => (Except.ok byte, between before input))
    (InMemory.getElem?_between offset)

/-- Going forward needs bytes to go over. -/
theorem run_advance (taken rest : Bytes) {count : Nat} (split : input = taken ++ rest)
    (h : taken.length = count) :
    (advance count).run (between before input) = (.ok (), between (before ++ taken) rest) := by
  subst split h
  rw [advance, run_ask]
  show InMemory.answer _ _ = _
  rw [InMemory.answer, if_pos (by simp)]
  simp [between]

/-- A piece that stands behind some bytes. -/
theorem run_slice (skipped piece rest : Bytes) {start stop : Nat}
    (split : input = skipped ++ (piece ++ rest)) (hstart : skipped.length = start)
    (hstop : start + piece.length = stop) :
    (slice start stop).run (between before input) = (.ok piece, between before input) := by
  subst split hstart hstop
  rw [slice, run_ask]
  show InMemory.answer _ _ = _
  rw [InMemory.answer, if_pos ⟨Nat.le_add_right _ _, by simp⟩]
  refine congrArg (fun found => (Except.ok found, between before _))
    ((InMemory.extract_between _ _).trans ?_)
  rw [← List.append_assoc, List.take_left' (by simp), List.drop_left]

/-- The search from an offset finds the first spot behind it. -/
theorem offset?_between {search : Array UInt8 → Nat → Option Nat} {spot : Bytes → Prop}
    {width start offset : Nat} (locates : Locates search spot width)
    (first : IsFirst spot input start offset) :
    (between before input).offset?
        (search (between before input).bytes ((between before input).position + start))
      = some offset := by
  have found := (locates.find_eq_some_iff (between before input).bytes (before.length + start)
    (before.length + offset)).2 (InMemory.isFirst_between.2 ⟨offset, rfl, first⟩)
  show Option.map _ (search _ (before.length + start)) = _
  rw [found]
  exact congrArg some (Nat.add_sub_cancel_left _ _)

/-- It finds nothing if there is no spot. -/
theorem offset?_between_none {search : Array UInt8 → Nat → Option Nat} {spot : Bytes → Prop}
    {width start : Nat} (locates : Locates search spot width)
    (nowhere : ∀ offset, start ≤ offset → ¬ spot (input.drop offset)) :
    (between before input).offset?
        (search (between before input).bytes ((between before input).position + start))
      = none := by
  show Option.map _ (search _ (before.length + start)) = _
  rw [Option.map_eq_none_iff, Option.eq_none_iff_forall_ne_some]
  intro index found
  obtain ⟨offset, rfl, first⟩ :=
    InMemory.isFirst_between.1 ((locates.find_eq_some_iff _ _ _).1 found)
  exact nowhere offset first.le first.holds

/-- **A search for a needle** that stands behind some text. -/
theorem run_find {needle : Bytes} (skipped text rest : Bytes) {start : Nat}
    (split : input = skipped ++ (text ++ (needle ++ rest))) (h : skipped.length = start)
    (inside : ¬ needle <:+: text ++ needle.dropLast) :
    (find needle start).run (between before input)
      = (.ok (some (start + text.length)), between before input) := by
  have ne_nil : needle ≠ [] := by
    rintro rfl
    exact inside List.nil_infix
  subst split h
  rw [find, run_ask]
  exact congrArg (fun found => (Except.ok found, between before _))
    (offset?_between (locates_findBytes ne_nil) (isFirst_needle inside))

/-- A search for a needle that does not occur. -/
theorem run_find_none {needle : Bytes} {start : Nat} (ne_nil : needle ≠ [])
    (nowhere : ¬ needle <:+: input.drop start) :
    (find needle start).run (between before input) = (.ok none, between before input) := by
  rw [find, run_ask]
  refine congrArg (fun found => (Except.ok found, between before input))
    (offset?_between_none (locates_findBytes ne_nil) fun offset hle stands => nowhere ?_)
  obtain ⟨more, rfl⟩ := Nat.exists_eq_add_of_le hle
  rw [← List.drop_drop] at stands
  exact stands.isInfix.trans (List.drop_suffix more _).isInfix

/-- **A search for either of two bytes**, one of which stands behind some
text. -/
theorem run_findEither {a b byte : UInt8} {skipped text rest : Bytes} {start : Nat}
    (split : input = skipped ++ (text ++ byte :: rest)) (h : skipped.length = start)
    (found : byte = a ∨ byte = b) (inside : ∀ other ∈ text, other ≠ a ∧ other ≠ b) :
    (findEither a b start).run (between before input)
      = (.ok (some (start + text.length)), between before input) := by
  subst split h
  rw [findEither, run_ask]
  refine congrArg (fun found => (Except.ok found, between before _))
    (offset?_between (locates_findEither a b) ⟨Nat.le_add_right _ _, ?_, fun index hle hlt => ?_⟩)
  · rw [← List.append_assoc, List.drop_left' (by simp)]
    simpa using found
  · obtain ⟨offset, rfl⟩ := Nat.exists_eq_add_of_le hle
    rw [List.drop_append, List.drop_eq_nil_of_le (Nat.le_add_right _ _), Nat.add_sub_cancel_left,
      List.nil_append, List.head?_drop,
      List.getElem?_append_left (show offset < text.length by omega), List.getElem?_eq_getElem]
    have := inside _ (List.getElem_mem (show offset < text.length by omega))
    simpa using this

/-- A search for two bytes that do not occur. -/
theorem run_findEither_none {a b : UInt8} {start : Nat}
    (nowhere : ¬ (a ∈ input.drop start ∨ b ∈ input.drop start)) :
    (findEither a b start).run (between before input) = (.ok none, between before input) := by
  rw [findEither, run_ask]
  refine congrArg (fun found => (Except.ok found, between before input))
    (offset?_between_none (locates_findEither a b) fun offset hle stands => nowhere ?_)
  obtain ⟨more, rfl⟩ := Nat.exists_eq_add_of_le hle
  rw [← List.drop_drop] at stands
  have mem : ∀ byte, ((input.drop start).drop more).head? = some byte → byte ∈ input.drop start :=
    fun byte hhead => List.mem_of_mem_drop (List.mem_of_head? hhead)
  exact stands.imp (mem a) (mem b)

theorem run_skipRest :
    skipRest.run (between before input) = (.ok (), between (before ++ input) []) := by
  rw [skipRest, run_ask]
  show (_, _) = _
  simp [between]

theorem run_preview (count : Nat) :
    (preview count).run (between before input)
      = (.ok (input.take count), between before input) := by
  rw [preview, run_ask]
  exact congrArg (fun piece => (Except.ok piece, between before input))
    (InMemory.extract_between 0 count)

/-- A run of bytes of one class takes as many as there are. -/
theorem run_spanFrom (member : UInt8 → Bool) (start fuel : Nat) (h : input.length < start + fuel) :
    (spanFrom member start fuel).run (between before input)
      = (.ok (start + ((input.drop start).takeWhile member).length), between before input) := by
  induction fuel generalizing start with
  | zero =>
    rw [spanFrom, run_pure, List.drop_eq_nil_of_le (by omega)]
    rfl
  | succ fuel ih =>
    rw [spanFrom, run_bind_ok (run_peek start)]
    rcases hbyte : input[start]? with _ | byte
    · rw [List.drop_eq_nil_of_le (by simpa using hbyte)]
      rw [run_pure]
      rfl
    · obtain ⟨inside, rfl⟩ := List.getElem?_eq_some_iff.1 hbyte
      rw [List.drop_eq_getElem_cons inside, List.takeWhile_cons]
      dsimp only
      split
      · rw [ih (start + 1) (by omega), List.length_cons, Nat.add_right_comm, Nat.add_assoc]
      · rw [run_pure]
        rfl

theorem run_spanEnd (member : UInt8 → Bool) (start : Nat) :
    (spanEnd member start).run (between before input)
      = (.ok (start + ((input.drop start).takeWhile member).length), between before input) := by
  rw [spanEnd, run_bind_ok (run_left _), InMemory.left_between]
  exact run_spanFrom member start _ (by omega)

theorem run_atEnd :
    atEnd.run (between before input) = (.ok input.isEmpty, between before input) := by
  rw [atEnd, run_bind_ok (run_peek 0), run_pure]
  cases input <;> rfl

/-! ## Recognition -/

/-- **On this input the scan recognizes a relation**: it succeeds exactly with
the values that are related to what it takes and what it leaves. -/
def Recognizes (scan : Scan α) (before input : Bytes) (derives : α → Bytes → Bytes → Prop) :
    Prop :=
  ∀ value cursor, scan.run (between before input) = (.ok value, cursor)
    ↔ ∃ source rest, input = source ++ rest ∧ derives value source rest
        ∧ cursor = between (before ++ source) rest

namespace Recognizes

variable {derives derives' : α → Bytes → Bytes → Prop} {scan : Scan α}

/-- What is the same on the input is recognized alike. -/
theorem congr (h : scan.Recognizes before input derives)
    (same : ∀ value source rest, input = source ++ rest →
      (derives value source rest ↔ derives' value source rest)) :
    scan.Recognizes before input derives' := by
  intro value cursor
  rw [h value cursor]
  constructor
  · rintro ⟨source, rest, split, derived, rfl⟩
    exact ⟨source, rest, split, (same value source rest split).1 derived, rfl⟩
  · rintro ⟨source, rest, split, derived, rfl⟩
    exact ⟨source, rest, split, (same value source rest split).2 derived, rfl⟩

/-- **There is one derivation only.** -/
theorem unique (h : scan.Recognizes before input derives) {value value' : α}
    {source source' rest rest' : Bytes} (split : input = source ++ rest)
    (split' : input = source' ++ rest') (derived : derives value source rest)
    (derived' : derives value' source' rest') : value = value' ∧ source = source' ∧ rest = rest' := by
  have ran := (h value _).2 ⟨source, rest, split, derived, rfl⟩
  rw [(h value' _).2 ⟨source', rest', split', derived', rfl⟩] at ran
  obtain ⟨found, same⟩ := Prod.mk.inj ran
  obtain ⟨front, back⟩ := InMemory.between_inj same
  exact ⟨(Except.ok.inj found).symm, (List.append_cancel_left front).symm, back.symm⟩

/-- A reading that needs no bytes takes none. -/
theorem pure (value : α) :
    (pure value : Scan α).Recognizes before input fun found source _ =>
      found = value ∧ source = [] := by
  intro found cursor
  rw [run_pure]
  constructor
  · rintro ⟨⟩
    exact ⟨[], input, rfl, ⟨rfl, rfl⟩, by rw [List.append_nil]⟩
  · rintro ⟨_, rest, rfl, ⟨rfl, rfl⟩, rfl⟩
    rw [List.append_nil, List.nil_append]

/-- **A reading that knows its rules**: it gives what any derivation says, and
fails where there is none. -/
theorem of_complete
    (complete : ∀ value source rest, input = source ++ rest → derives value source rest →
      scan.run (between before input) = (.ok value, between (before ++ source) rest))
    (total : (∃ value source rest, input = source ++ rest ∧ derives value source rest)
      ∨ ∃ fault cursor, scan.run (between before input) = (.error fault, cursor)) :
    scan.Recognizes before input derives := by
  intro value cursor
  constructor
  · intro h
    rcases total with ⟨value', source, rest, split, derived⟩ | ⟨fault, cursor', failed⟩
    · -- there is a derivation, and by completeness its value is the one given
      have h' := complete value' source rest split derived
      rw [h, Prod.mk.injEq, Except.ok.injEq] at h'
      obtain ⟨rfl, rfl⟩ := h'
      exact ⟨source, rest, split, derived, rfl⟩
    · rw [h] at failed
      simp at failed
  · rintro ⟨source, rest, split, derived, rfl⟩
    exact complete value source rest split derived

/-- A failure recognizes what has no derivation. -/
theorem of_error {fault : Fault} {cursor : InMemory}
    (h : scan.run (between before input) = (.error fault, cursor))
    (none : ∀ value source rest, input = source ++ rest → ¬ derives value source rest) :
    scan.Recognizes before input derives :=
  of_complete (fun value source rest split derived => absurd derived (none value source rest split))
    (.inr ⟨fault, cursor, h⟩)

/-- **A sequence recognizes a sequence.** -/
theorem bind {first : Scan α} {next : α → Scan β} {derivesNext : α → β → Bytes → Bytes → Prop}
    (hfirst : first.Recognizes before input derives)
    (hnext : ∀ value source rest, input = source ++ rest → derives value source rest →
      (next value).Recognizes (before ++ source) rest (derivesNext value)) :
    (first >>= next).Recognizes before input fun value source rest =>
      ∃ between front back, source = front ++ back ∧ derives between front (back ++ rest)
        ∧ derivesNext between value back rest := by
  intro value cursor
  constructor
  · intro h
    obtain ⟨between, cursor', hfirst', hnext'⟩ := ok_of_run_bind h
    obtain ⟨front, others, split, derived, rfl⟩ := (hfirst between cursor').1 hfirst'
    obtain ⟨back, rest, rfl, derived', rfl⟩ :=
      (hnext between front others split derived value cursor).1 hnext'
    exact ⟨front ++ back, rest, by rw [split, List.append_assoc],
      ⟨between, front, back, rfl, derived, derived'⟩, by rw [List.append_assoc]⟩
  · rintro ⟨_, rest, split, ⟨between, front, back, rfl, derived, derived'⟩, rfl⟩
    rw [List.append_assoc] at split
    rw [run_bind_ok ((hfirst between _).2 ⟨front, back ++ rest, split, derived, rfl⟩)]
    exact (hnext between front _ split derived value _).2
      ⟨back, rest, rfl, derived', by rw [List.append_assoc]⟩

/-- Behind an answer that takes nothing. -/
theorem asked {first : Scan α} {next : α → Scan β} {value : α}
    {derives : β → Bytes → Bytes → Prop}
    (h : first.run (between before input) = (.ok value, between before input))
    (hnext : (next value).Recognizes before input derives) :
    (first >>= next).Recognizes before input derives := by
  intro found cursor
  rw [run_bind_ok h]
  exact hnext found cursor

/-- Behind a reading that succeeds. -/
theorem moved {first : Scan α} {next : α → Scan β} {value : α} {taken rest : Bytes}
    {derives : β → Bytes → Bytes → Prop}
    (h : first.run (between before (taken ++ rest)) = (.ok value, between (before ++ taken) rest))
    (hnext : (next value).Recognizes (before ++ taken) rest derives) :
    (first >>= next).Recognizes before (taken ++ rest) fun found source left =>
      ∃ back, source = taken ++ back ∧ derives found back left := by
  intro found cursor
  rw [run_bind_ok h, hnext found cursor]
  constructor
  · rintro ⟨back, left, rfl, derived, rfl⟩
    exact ⟨taken ++ back, left, by rw [List.append_assoc], ⟨back, rfl, derived⟩,
      by rw [List.append_assoc]⟩
  · rintro ⟨_, left, split, ⟨back, rfl, derived⟩, rfl⟩
    rw [List.append_assoc] at split
    exact ⟨back, left, List.append_cancel_left split, derived, by rw [List.append_assoc]⟩

end Recognizes

end Scan

end TableDump
