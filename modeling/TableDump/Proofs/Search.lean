import Mathlib
import TableDump.Bytes

/-!
# The first place, characterized

A search gives the first place of its kind, and none only if there is no such
place. Whether a place is of the kind is a property of the bytes from there on
(a `spot`), and of finitely many of them: where `width` bytes are known, it is
known. That is all that a search through a window needs (`Locates`), and both
searches of the program have it – for a needle that is not empty.
-/

namespace TableDump

/-! ## The least index of a range -/

/-- The index found is the least of the range that passes. -/
theorem firstIndex_eq_some_iff {test : Nat → Bool} {start count index : Nat} :
    firstIndex test start count = some index
      ↔ start ≤ index ∧ index < start + count ∧ test index = true
        ∧ ∀ before, start ≤ before → before < index → test before = false := by
  induction count generalizing start with
  | zero =>
    simp only [firstIndex, reduceCtorEq, false_iff]
    omega
  | succ count ih =>
    rw [firstIndex]
    split
    case isTrue passes =>
      constructor
      · rintro ⟨⟩
        exact ⟨le_rfl, by omega, passes, by omega⟩
      · rintro ⟨least, -, -, none⟩
        by_contra other
        have below : start < index := lt_of_le_of_ne least fun same => other (by rw [same])
        rw [none start le_rfl below] at passes
        exact Bool.false_ne_true passes
    case isFalse fails =>
      rw [ih]
      constructor
      · rintro ⟨least, bound, passes, none⟩
        refine ⟨by omega, by omega, passes, fun before hb hlt => ?_⟩
        rcases Nat.eq_or_lt_of_le hb with rfl | hb
        · simpa using fails
        · exact none before hb hlt
      · rintro ⟨least, bound, passes, none⟩
        have other : start ≠ index := fun same => fails (same ▸ passes)
        exact ⟨by omega, by omega, passes, fun before hb hlt => none before (by omega) hlt⟩

/-! ## Spots -/

/-- **The first place from `start` on** from which the bytes are a `spot`. -/
structure IsFirst (spot : Bytes → Prop) (bytes : Bytes) (start index : Nat) : Prop where
  /-- It is not before the start. -/
  le : start ≤ index
  /-- It is a spot. -/
  holds : spot (bytes.drop index)
  /-- No place before is. -/
  least : ∀ before, start ≤ before → before < index → ¬ spot (bytes.drop before)

namespace IsFirst

variable {spot : Bytes → Prop} {bytes : Bytes} {start index : Nat}

/-- Where there is a spot at all, there is a first one. -/
theorem exists_of_spot (h : start ≤ index) (hspot : spot (bytes.drop index)) :
    ∃ first, IsFirst spot bytes start first := by
  classical
  have some : ∃ place, start ≤ place ∧ spot (bytes.drop place) := ⟨index, h, hspot⟩
  exact ⟨Nat.find some, (Nat.find_spec some).1, (Nat.find_spec some).2,
    fun before hb hlt hs => Nat.find_min some hlt ⟨hb, hs⟩⟩

/-- The first place from a later start on is the first one from `start` on, if
there is none between. -/
theorem of_later {later : Nat} (hle : start ≤ later)
    (skipped : ∀ before, start ≤ before → before < later → ¬ spot (bytes.drop before))
    (h : IsFirst spot bytes later index) : IsFirst spot bytes start index where
  le := hle.trans h.le
  holds := h.holds
  least before hb hlt := by
    by_cases early : before < later
    · exact skipped before hb early
    · exact h.least before (by omega) hlt

end IsFirst

/-- **A search for spots of a kind.** -/
structure Locates (find : Array UInt8 → Nat → Option Nat) (spot : Bytes → Prop) (width : Nat) :
    Prop where
  /-- Nothing is no spot. -/
  width_pos : 0 < width
  /-- `width` bytes tell whether they begin a spot, and fewer do not. -/
  take_iff : ∀ (bytes : Bytes) (count : Nat), spot (bytes.take count) ↔ spot bytes ∧ width ≤ count
  /-- The first spot is found. -/
  find_eq_some_iff : ∀ (held : Array UInt8) (start index : Nat),
    find held start = some index ↔ IsFirst spot held.toList start index

namespace Locates

variable {find : Array UInt8 → Nat → Option Nat} {spot : Bytes → Prop} {width : Nat}

/-- Nothing is found only if nothing is there. -/
theorem find_eq_none_iff (h : Locates find spot width) (held : Array UInt8) (start : Nat) :
    find held start = none ↔ ∀ index, start ≤ index → ¬ spot (held.toList.drop index) := by
  constructor
  · intro nothing index hle hspot
    obtain ⟨first, hfirst⟩ := IsFirst.exists_of_spot hle hspot
    rw [(h.find_eq_some_iff held start first).2 hfirst] at nothing
    exact absurd nothing (by simp)
  · intro nothing
    rw [Option.eq_none_iff_forall_ne_some]
    intro index found
    have first := (h.find_eq_some_iff held start index).1 found
    exact nothing index first.le first.holds

/-- A search may start behind places that are no spots. -/
theorem find_eq_of_skipped (h : Locates find spot width) {held : Array UInt8} {start later : Nat}
    (hle : start ≤ later)
    (skipped : ∀ index, start ≤ index → index < later → ¬ spot (held.toList.drop index)) :
    find held later = find held start := by
  refine Option.ext fun index => ?_
  rw [h.find_eq_some_iff, h.find_eq_some_iff]
  constructor
  · exact IsFirst.of_later hle skipped
  · intro first
    have : later ≤ index := by
      by_contra early
      exact skipped index first.le (by omega) first.holds
    exact ⟨this, first.holds, fun before hb hlt => first.least before (by omega) hlt⟩

/-- Of the first `count` bytes, the spots are those that end among them. -/
theorem spot_drop_take_iff (h : Locates find spot width) (bytes : Bytes) (count index : Nat) :
    spot ((bytes.take count).drop index) ↔ spot (bytes.drop index) ∧ index + width ≤ count := by
  have := h.width_pos
  rw [List.drop_take, h.take_iff]
  exact and_congr_right fun _ => by omega

/-- The first spot among the first `count` bytes is the first of all. -/
theorem isFirst_of_take (h : Locates find spot width) {bytes : Bytes} (count : Nat)
    {start index : Nat} (first : IsFirst spot (bytes.take count) start index) :
    IsFirst spot bytes start index where
  le := first.le
  holds := ((h.spot_drop_take_iff bytes count index).1 first.holds).1
  least before hb hlt hspot := by
    have fits := ((h.spot_drop_take_iff bytes count index).1 first.holds).2
    exact first.least before hb hlt ((h.spot_drop_take_iff bytes count before).2 ⟨hspot, by omega⟩)

end Locates

/-! ## The two searches -/

/-- A needle stands where the bytes begin with it. -/
theorem standsAt_iff {held : Array UInt8} {needle : Bytes} {index : Nat}
    (h : index ≤ held.size) :
    standsAt held needle index = true ↔ needle <+: held.toList.drop index := by
  induction needle generalizing index with
  | nil => simp [standsAt]
  | cons byte rest ih =>
    rw [standsAt, Bool.and_eq_true, beq_iff_eq]
    by_cases inside : index < held.size
    · rw [ih (Nat.succ_le_of_lt inside), Array.getElem?_eq_getElem inside,
        List.drop_eq_getElem_cons (show index < held.toList.length by simpa using inside),
        List.cons_prefix_cons, Array.getElem_toList, Option.some.injEq]
      exact and_congr_left fun _ => eq_comm
    · rw [Array.getElem?_eq_none (by omega), List.drop_of_length_le (by simp; omega)]
      simp

/-- The bytes from a place on begin with the byte at that place. -/
theorem head?_drop_toList (held : Array UInt8) (index : Nat) :
    (held.toList.drop index).head? = held[index]? := by
  rw [List.head?_drop, Array.getElem?_toList]

/-- **The search for a needle** locates where the bytes begin with it. -/
theorem locates_findBytes {needle : Bytes} (h : needle ≠ []) :
    Locates (fun held => findBytes held needle) (needle <+: ·) needle.length where
  width_pos := List.length_pos_of_ne_nil h
  take_iff _ _ := List.prefix_take_iff
  find_eq_some_iff held start index := by
    rw [findBytes, firstIndex_eq_some_iff]
    constructor
    · rintro ⟨le, bound, passes, least⟩
      refine ⟨le, (standsAt_iff (by omega)).1 passes, fun before hb hlt hspot => ?_⟩
      have stands := (standsAt_iff (by omega)).2 hspot
      exact Bool.false_ne_true ((least before hb hlt).symm.trans stands)
    · rintro ⟨le, hspot, least⟩
      have inside : index < held.size := by
        have := hspot.length_le
        have := List.length_pos_of_ne_nil h
        simp only [List.length_drop, Array.length_toList] at *
        omega
      refine ⟨le, by omega, (standsAt_iff inside.le).2 hspot, fun before hb hlt => ?_⟩
      rw [Bool.eq_false_iff]
      exact fun stands => least before hb hlt ((standsAt_iff (by omega)).1 stands)

/-- **The search for either of two bytes** locates where the bytes begin with
one of them. -/
theorem locates_findEither (a b : UInt8) :
    Locates (fun held => findEither held a b)
      (fun bytes => bytes.head? = some a ∨ bytes.head? = some b) 1 where
  width_pos := Nat.one_pos
  take_iff bytes count := by
    cases count with
    | zero => simp
    | succ count => cases bytes <;> simp
  find_eq_some_iff held start index := by
    rw [findEither, firstIndex_eq_some_iff]
    simp only [Bool.or_eq_true, Bool.or_eq_false_iff, beq_iff_eq, beq_eq_false_iff_ne]
    constructor
    · rintro ⟨le, -, passes, least⟩
      refine ⟨le, by rwa [head?_drop_toList], fun before hb hlt => ?_⟩
      rw [head?_drop_toList]
      exact not_or.2 (least before hb hlt)
    · rintro ⟨le, hspot, least⟩
      rw [head?_drop_toList] at hspot
      have inside : index < held.size := by
        by_contra outside
        rw [Array.getElem?_eq_none (by omega)] at hspot
        simp at hspot
      refine ⟨le, by omega, hspot, fun before hb hlt => ?_⟩
      have := least before hb hlt
      rw [head?_drop_toList] at this
      exact not_or.1 this

/-! ## Splitting where a needle stands first -/

/-- A needle stands first behind a text that it does not begin in. -/
theorem isFirst_needle {needle skipped text rest : Bytes}
    (inside : ¬ needle <:+: text ++ needle.dropLast) :
    IsFirst (needle <+: ·) (skipped ++ (text ++ (needle ++ rest))) skipped.length
      (skipped.length + text.length) where
  le := Nat.le_add_right _ _
  holds := by
    rw [← List.append_assoc, List.drop_left' (by simp)]
    exact List.prefix_append _ _
  least index hle hlt hspot := by
    obtain ⟨offset, rfl⟩ := Nat.exists_eq_add_of_le hle
    rw [List.drop_append, List.drop_eq_nil_of_le (Nat.le_add_right _ _), Nat.add_sub_cancel_left,
      List.nil_append] at hspot
    -- what stands at the offset ends before the last byte of the needle behind
    have ends : (text ++ needle.dropLast).drop offset
        <+: (text ++ (needle ++ rest)).drop offset := by
      refine List.IsPrefix.drop ((List.prefix_append_right_inj text).2 ?_) offset
      exact (List.dropLast_prefix needle).trans (List.prefix_append needle rest)
    have fits : needle.length ≤ ((text ++ needle.dropLast).drop offset).length := by
      simp only [List.length_drop, List.length_append, List.length_dropLast]
      omega
    have within := List.prefix_of_prefix_length_le hspot ends fits
    exact inside (within.isInfix.trans (List.drop_suffix _ _).isInfix)

/-- **Where a needle occurs, it occurs a first time.** -/
theorem exists_first_text {needle input : Bytes} (ne_nil : needle ≠ [])
    (occurs : needle <:+: input) :
    ∃ text rest, input = text ++ (needle ++ rest) ∧ ¬ needle <:+: text ++ needle.dropLast := by
  obtain ⟨somewhere, behind, rfl⟩ := occurs
  obtain ⟨index, first⟩ :
      ∃ index, IsFirst (needle <+: ·) (somewhere ++ needle ++ behind) 0 index := by
    refine IsFirst.exists_of_spot (Nat.zero_le somewhere.length) ?_
    rw [List.append_assoc, List.drop_left]
    exact List.prefix_append _ _
  obtain ⟨rest, found⟩ := first.holds
  generalize somewhere ++ needle ++ behind = input at first found ⊢
  refine ⟨input.take index, rest, by rw [found, List.take_append_drop], ?_⟩
  rintro ⟨front, back, within⟩
  have shorter := congrArg List.length within
  have pos := List.length_pos_of_ne_nil ne_nil
  have bound := List.length_take_le index input
  simp only [List.length_append, List.length_dropLast] at shorter
  -- an occurrence that ends sooner begins sooner, but this one begins first
  refine first.least front.length (Nat.zero_le _) (by omega) ?_
  have earlier : input = front ++ (needle ++ (back ++ ([needle.getLast ne_nil] ++ rest))) := by
    calc input
        = input.take index ++ (needle.dropLast ++ [needle.getLast ne_nil] ++ rest) := by
          rw [List.dropLast_append_getLast, found, List.take_append_drop]
      _ = (input.take index ++ needle.dropLast) ++ ([needle.getLast ne_nil] ++ rest) := by
          simp only [List.append_assoc]
      _ = front ++ (needle ++ (back ++ ([needle.getLast ne_nil] ++ rest))) := by
          rw [← within]
          simp only [List.append_assoc]
  rw [earlier, List.drop_left]
  exact List.prefix_append _ _

/-- **Where one of two bytes occurs**, one of them occurs first. -/
theorem exists_first_either {a b : UInt8} {input : Bytes} (occurs : a ∈ input ∨ b ∈ input) :
    ∃ text byte rest, input = text ++ byte :: rest ∧ (byte = a ∨ byte = b)
      ∧ ∀ other ∈ text, other ≠ a ∧ other ≠ b := by
  induction input with
  | nil => simp at occurs
  | cons byte input ih =>
    by_cases here : byte = a ∨ byte = b
    · exact ⟨[], byte, input, rfl, here, by simp⟩
    · obtain ⟨text, found, rest, rfl, found_eq, others⟩ := ih (by
        simp only [List.mem_cons] at occurs
        tauto)
      refine ⟨byte :: text, found, rest, rfl, found_eq, ?_⟩
      rintro other (_ | ⟨_, mem⟩)
      · exact not_or.1 here
      · exact others other mem

end TableDump
