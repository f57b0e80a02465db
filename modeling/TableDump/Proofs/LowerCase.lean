import Mathlib
import TableDump.Catalog

/-!
# Lower case, once and for all

A text in lower case stays as it is when it is put in lower case again
(`lowerCase_lowerCase`), whatever the text. So it does not matter how often a
name is put in lower case on its way into the catalog, or that it was not yet
in lower case when it is looked up.

The argument is about single characters. One is *settled* if it is no capital
sigma and its lower case is the character itself. What comes out of
`lowerOnto` is settled, and it leaves settled characters alone; so a small
sigma is never reconsidered, although its surroundings have changed. That the
letters of the table are settled once they are shifted is a fact about the
table, and is checked there: the ranges of the shifted letters and of the
letters are compared pair by pair, and letter by letter only in the few pairs
that overlap – capital and small letters that take turns.
-/

namespace TableDump

/-! ## The table -/

namespace LetterRun

/-- The lower case of a letter of a run, as a code point. -/
def lower (run : LetterRun) (code : Nat) : Nat := (code + run.shift).toNat

/-- The letters of a run, as code points. -/
def codes (run : LetterRun) : List Nat :=
  List.range' run.first ((run.last - run.first) / run.step + 1) run.step

/-- No letter of a run is a letter of the other one when it is in lower
case. -/
def misses (run other : LetterRun) : Bool :=
  (run.lower run.last).blt other.first || other.last.blt (run.lower run.first)
    || run.codes.all fun code => !other.holds (run.lower code)

/-- The letters of a run are characters when they are in lower case. -/
def staysValid (run : LetterRun) : Bool :=
  (run.lower run.last).blt 0xD800
    || (Nat.blt 0xDFFF (run.lower run.first) && (run.lower run.last).blt 0x110000)

variable {run other : LetterRun} {code : Nat}

theorem bounds_of_holds (h : run.holds code = true) : run.first ≤ code ∧ code ≤ run.last := by
  unfold holds at h
  simp only [Bool.and_eq_true, decide_eq_true_eq] at h
  exact h.1

theorem mem_codes (h : run.holds code = true) : code ∈ run.codes := by
  obtain ⟨from_first, to_last⟩ := bounds_of_holds h
  unfold holds at h
  simp only [Bool.and_eq_true, decide_eq_true_eq, beq_iff_eq] at h
  refine List.mem_range'.2 ⟨(code - run.first) / run.step, ?_, ?_⟩
  · exact Nat.lt_succ_of_le (Nat.div_le_div_right (Nat.sub_le_sub_right to_last _))
  · have whole := Nat.div_add_mod (code - run.first) run.step
    rw [h.2] at whole
    omega

/-- **Being in lower case takes a letter out of the run.** -/
theorem not_holds_lower (apart : run.misses other = true) (h : run.holds code = true) :
    other.holds (run.lower code) = false := by
  obtain ⟨from_first, to_last⟩ := bounds_of_holds h
  have above : run.lower run.first ≤ run.lower code := by unfold lower; omega
  have below : run.lower code ≤ run.lower run.last := by unfold lower; omega
  by_contra held
  obtain ⟨above', below'⟩ := bounds_of_holds (Bool.eq_true_of_not_eq_false held)
  unfold misses at apart
  simp only [Bool.or_eq_true, Nat.blt_eq, List.all_eq_true, Bool.not_eq_true'] at apart
  rcases apart with (before | behind) | each
  · omega
  · omega
  · exact held (each code (mem_codes h))

theorem isValidChar_lower (valid : run.staysValid = true) (h : run.holds code = true) :
    (run.lower code).isValidChar := by
  obtain ⟨from_first, to_last⟩ := bounds_of_holds h
  have above : run.lower run.first ≤ run.lower code := by unfold lower; omega
  have below : run.lower code ≤ run.lower run.last := by unfold lower; omega
  unfold staysValid at valid
  simp only [Bool.or_eq_true, Bool.and_eq_true, Nat.blt_eq] at valid
  unfold Nat.isValidChar
  omega

end LetterRun

/-- The letters that are not in lower case: those of the table, and the two
that are not in it. -/
def capitalRuns : List LetterRun :=
  ⟨0x130, 0x130, 1, 0⟩ :: ⟨0x3A3, 0x3A3, 1, 0⟩ :: upperRuns

/-- No lower case in the table is a letter that has another one. -/
theorem upperRuns_miss_capitalRuns :
    (upperRuns.all fun run => run.staysValid && capitalRuns.all run.misses) = true := by
  decide +kernel

/-! ## Settled characters -/

/-- A character that is its own lower case, wherever it stands. -/
structure IsSettled (character : Char) : Prop where
  ne_capitalSigma : character ≠ capitalSigma
  lowerCharacter_eq : lowerCharacter character = [character]

theorem isSettled_of_not_held {character : Char}
    (h : ∀ run ∈ capitalRuns, run.holds character.toNat = false) : IsSettled character where
  ne_capitalSigma := by
    rintro rfl
    exact absurd (h _ (List.mem_cons_of_mem _ List.mem_cons_self)) (by decide)
  lowerCharacter_eq := by
    have dotted : character ≠ '\u0130' := by
      rintro rfl
      exact absurd (h _ List.mem_cons_self) (by decide)
    have unheld : (upperRuns.find? fun run => run.holds character.toNat) = none :=
      List.find?_eq_none.2 fun run mem => by
        simp [h run (List.mem_cons_of_mem _ (List.mem_cons_of_mem _ mem))]
    unfold lowerCharacter
    rw [if_neg dotted, unheld]

/-- Each of these four characters can come from a letter that is not in the
table. -/
theorem isSettled_of_mem {character : Char}
    (h : character ∈ ['i', '\u0307', '\u03C2', '\u03C3']) : IsSettled character := by
  have unheld : (['i', '\u0307', '\u03C2', '\u03C3'].all fun character =>
      capitalRuns.all fun run => !run.holds character.toNat) = true := by
    decide +kernel
  refine isSettled_of_not_held fun run mem => ?_
  simpa using List.all_eq_true.1 (List.all_eq_true.1 unheld character h) run mem

/-- **The lower case of a character is settled.** -/
theorem isSettled_of_mem_lowerCharacter {character lower : Char} (known : character ≠ capitalSigma)
    (h : lower ∈ lowerCharacter character) : IsSettled lower := by
  unfold lowerCharacter at h
  split at h
  case isTrue =>
    exact isSettled_of_mem (List.mem_append_left ['\u03C2', '\u03C3'] h)
  case isFalse dotted =>
    cases found : upperRuns.find? fun run => run.holds character.toNat with
    | some run =>
      rw [found] at h
      obtain rfl := List.mem_singleton.1 h
      have held := List.find?_some found
      have checked := List.all_eq_true.1 upperRuns_miss_capitalRuns run
        (List.mem_of_find?_eq_some found)
      rw [Bool.and_eq_true] at checked
      have valid := LetterRun.isValidChar_lower checked.1 held
      refine isSettled_of_not_held fun other mem => ?_
      show other.holds (Char.ofNat (run.lower character.toNat)).toNat = false
      rw [Char.toNat_ofNat, if_pos valid]
      exact LetterRun.not_holds_lower (List.all_eq_true.1 checked.2 other mem) held
    | none =>
      have unheld := List.find?_eq_none.1 found
      rw [found] at h
      obtain rfl := List.mem_singleton.1 h
      refine ⟨known, ?_⟩
      unfold lowerCharacter
      rw [if_neg dotted, found]

theorem isSettled_smallSigma (before behind : List Char) :
    IsSettled (smallSigma before behind) := by
  unfold smallSigma
  split <;> exact isSettled_of_mem (by decide)

/-! ## Texts -/

theorem isSettled_of_mem_lowerOnto {lowered : List Char} (before : List Char) :
    ∀ {characters : List Char}, (∀ c ∈ lowered, IsSettled c) →
      ∀ c ∈ lowerOnto lowered before characters, IsSettled c := by
  intro characters
  induction characters generalizing lowered before with
  | nil => exact fun settled c mem => settled c (List.mem_reverse.1 mem)
  | cons character behind ih =>
    intro settled
    refine ih _ fun c mem => ?_
    rcases List.mem_append.1 mem with mem | mem
    · rw [List.mem_reverse] at mem
      split at mem
      case isTrue =>
        rw [List.mem_singleton.1 mem]
        exact isSettled_smallSigma before behind
      case isFalse known => exact isSettled_of_mem_lowerCharacter known mem
    · exact settled c mem

theorem lowerOnto_of_isSettled {lowered : List Char} (before : List Char) :
    ∀ {characters : List Char}, (∀ c ∈ characters, IsSettled c) →
      lowerOnto lowered before characters = lowered.reverse ++ characters := by
  intro characters
  induction characters generalizing lowered before with
  | nil => exact fun _ => (List.append_nil _).symm
  | cons character behind ih =>
    intro settled
    have here := settled character List.mem_cons_self
    rw [lowerOnto, if_neg here.ne_capitalSigma, here.lowerCharacter_eq,
      ih _ fun c mem => settled c (List.mem_cons_of_mem character mem)]
    simp

/-- **A text in lower case is the same in lower case.** -/
theorem lowerCase_lowerCase (text : String) : lowerCase (lowerCase text) = lowerCase text := by
  have settled : ∀ c ∈ lowerOnto [] [] text.toList, IsSettled c :=
    isSettled_of_mem_lowerOnto [] nofun
  unfold lowerCase
  rw [String.toList_ofList, lowerOnto_of_isSettled [] settled]
  rfl

example : lowerCase "ΣΟΣ" = "σος" := by decide +kernel

end TableDump
