import Mathlib
import TableDump.Proofs.Decimal
import TableDump.Row.Json

/-!
# The text of a number tells which number it is

A real is written as a decimal number that is read as it, in one of two forms. So
if two reals have the same text, their decimal numbers are to have the same
value – which need not be the same decimal number, since 1 and 10 tenths are both
written `1.0`. With its digits in their places a decimal number is known up to
its value (`Decimal.ratio_eq_of_pointed`), with an exponent it is known itself
(`Decimal.scientific_inj`), and the exponent tells the forms apart.

The search for the shortest decimal is not looked into: it is enough that what it
finds is read as the number it was made for.
-/

namespace TableDump

open Nat (ofDigitChars)

/-- **A run of things of some kind ends where the first thing of another kind
stands**, so it can be told from what follows. -/
theorem append_inj_of_ends {α : Type} {kind : α → Prop} {run run' rest rest' : List α}
    (h : ∀ item ∈ run, kind item) (h' : ∀ item ∈ run', kind item)
    (ends : ∀ item, rest.head? = some item → ¬ kind item)
    (ends' : ∀ item, rest'.head? = some item → ¬ kind item)
    (same : run ++ rest = run' ++ rest') : run = run' ∧ rest = rest' := by
  induction run generalizing run' with
  | nil =>
    rcases run' with _ | ⟨first, run'⟩
    · exact ⟨rfl, same⟩
    · have here : rest.head? = some first := congrArg List.head? same
      exact absurd (h' first List.mem_cons_self) (ends first here)
  | cons first run ih =>
    rcases run' with _ | ⟨first', run'⟩
    · have here : rest'.head? = some first := congrArg List.head? same.symm
      exact absurd (h first List.mem_cons_self) (ends' first here)
    · obtain ⟨rfl, behind⟩ := List.cons.inj same
      obtain ⟨rfl, rfl⟩ := ih (fun item mem => h item (List.mem_cons_of_mem _ mem))
        (fun item mem => h' item (List.mem_cons_of_mem _ mem)) behind
      exact ⟨rfl, rfl⟩

namespace Decimal

variable {decimal decimal' : Decimal} {whole fraction : List Char}

/-! ## Digits in their places -/

/-- The form that is not to be taken for an integer is the one with a point. -/
theorem positional_true (decimal : Decimal) : decimal.positional true = decimal.pointed := by
  rcases place : decimal.pointAt with whole | missing
  · have plain : '.' ∉ decimal.figures ++ zeros (whole - decimal.figures.length) :=
      (decimal.allDigits_figures.append (allDigits_zeros _)).not_mem rfl
    rw [List.mem_append] at plain
    simp only [pointed, positional, place]
    split_ifs <;> simp_all
  · simp [pointed, positional, place]

/-- **The digits on both sides of the point tell the value.** -/
theorem Writes.ratio_eq (h : decimal.Writes whole fraction) (h' : decimal'.Writes whole fraction) :
    decimal.numerator * decimal'.denominator = decimal'.numerator * decimal.denominator := by
  have pos : 0 < 10 ^ fraction.length := Nat.pow_pos (by decide)
  refine Nat.eq_of_mul_eq_mul_right pos ?_
  calc decimal.numerator * decimal'.denominator * 10 ^ fraction.length
      = decimal.numerator * 10 ^ fraction.length * decimal'.denominator := Nat.mul_right_comm ..
    _ = decimal'.numerator * 10 ^ fraction.length * decimal.denominator := by
        rw [← h.ratio, ← h'.ratio, Nat.mul_right_comm]
    _ = decimal'.numerator * decimal.denominator * 10 ^ fraction.length := Nat.mul_right_comm ..

/-- So the text does. -/
theorem ratio_eq_of_pointed (same : decimal.pointed = decimal'.pointed) :
    decimal.numerator * decimal'.denominator = decimal'.numerator * decimal.denominator := by
  obtain ⟨whole, fraction, text, writes⟩ := decimal.exists_pointed
  obtain ⟨whole', fraction', text', writes'⟩ := decimal'.exists_pointed
  have point : ∀ {rest : List Char}, ∀ char, ('.' :: rest).head? = some char →
      ¬ char.isDigit = true := by
    rintro rest _ ⟨⟩
    decide
  obtain ⟨rfl, behind⟩ := append_inj_of_ends writes.whole_digits writes'.whole_digits point point
    (text.symm.trans (same.trans text'))
  obtain rfl := List.tail_eq_of_cons_eq behind
  exact writes.ratio_eq writes'

/-! ## With an exponent -/

/-- Figures with a point behind the first of them, if there are others. -/
def mantissa : List Char → List Char
  | first :: second :: rest => first :: '.' :: second :: rest
  | figures => figures

theorem mantissa_inj : ∀ {figures figures' : List Char}, mantissa figures = mantissa figures' →
    figures = figures'
  | [], [], _ | [_], [_], _ => by simp_all [mantissa]
  | _ :: _ :: _, _ :: _ :: _, same => by simpa [mantissa] using same
  | [], _ :: _ :: _, same | _ :: _ :: _, [], same => by simp [mantissa] at same
  | [], [_], same | [_], [], same => by simp [mantissa] at same
  | [_], _ :: _ :: _, same | _ :: _ :: _, [_], same => by simp [mantissa] at same

/-- The form with an exponent, in its parts. -/
theorem scientific_eq (decimal : Decimal) :
    decimal.scientific = mantissa decimal.figures ++
      'e' :: (if decimal.pointAt - 1 < 0 then '-' else '+')
        :: (decimal.pointAt - 1).natAbs.repr.toList := by
  unfold scientific mantissa
  rfl

theorem mem_mantissa {figures : List Char} {char : Char} (mem : char ∈ mantissa figures) :
    char ∈ figures ∨ char = '.' := by
  unfold mantissa at mem
  split at mem <;> simp_all
  tauto

theorem head?_mantissa (figures : List Char) : (mantissa figures).head? = figures.head? := by
  unfold mantissa
  split <;> rfl

/-- **The form with an exponent tells the decimal number.** -/
theorem scientific_inj (same : decimal.scientific = decimal'.scientific) : decimal = decimal' := by
  have letter : ∀ {decimal : Decimal}, ∀ char ∈ mantissa decimal.figures, char ≠ 'e' := by
    rintro decimal char mem rfl
    rcases mem_mantissa mem with digit | point
    · exact decimal.allDigits_figures.not_mem rfl digit
    · exact absurd point (by decide)
  rw [scientific_eq, scientific_eq] at same
  obtain ⟨front, behind⟩ := append_inj_of_ends letter letter (by simp) (by simp) same
  obtain ⟨-, behind⟩ := List.cons.inj behind
  obtain ⟨sign, absolute⟩ := List.cons.inj behind
  have figures := mantissa_inj front
  have size : (decimal.pointAt - 1).natAbs = (decimal'.pointAt - 1).natAbs :=
    Nat.repr_injective (String.toList_inj.1 absolute)
  have place : decimal.pointAt = decimal'.pointAt := by
    split_ifs at sign <;> first | omega | exact absurd sign (by decide)
  have digits : decimal.digits = decimal'.digits := by
    rw [← ofDigitChars_figures decimal, figures, ofDigitChars_figures]
  have exponent : decimal.exponent = decimal'.exponent := by
    unfold pointAt at place
    rw [figures] at place
    omega
  obtain ⟨_, _⟩ := decimal
  obtain ⟨_, _⟩ := decimal'
  congr

end Decimal

/-! ## Reals -/

/-- Numbers with the same sign and magnitude are the same. -/
theorem Binary64.eq_of_magnitude_eq {number number' : Binary64}
    (sign : number.isNegative = number'.isNegative)
    (magnitude : number.magnitude = number'.magnitude) : number = number' := by
  have small := number.bits.toNat_lt
  have small' := number'.bits.toNat_lt
  have place : signPlace = 2 ^ 63 := rfl
  have half : signPlace ≤ number.bits.toNat ↔ signPlace ≤ number'.bits.toNat := by
    simpa [isNegative] using sign
  unfold Binary64.magnitude at magnitude
  rw [place] at half magnitude
  have bits : number.bits = number'.bits := by
    rw [← UInt64.toNat_inj]
    omega
  obtain ⟨_⟩ := number
  obtain ⟨_⟩ := number'
  exact congrArg Binary64.mk bits

namespace Json

variable {first second : Decimal} {number number' : Binary64}

/-- A decimal number is written in one of two forms. -/
theorem decimal_eq (decimal : Decimal) :
    Json.decimal decimal = decimal.pointed ∨ Json.decimal decimal = decimal.scientific := by
  unfold Json.decimal
  rw [decimal.positional_true]
  exact ite_eq_or_eq _ _ _

/-- In the text with a point there are digits and this point. -/
theorem mem_pointed {decimal : Decimal} {char : Char} (mem : char ∈ decimal.pointed) :
    char.isDigit = true ∨ char = '.' := by
  obtain ⟨whole, fraction, text, writes⟩ := decimal.exists_pointed
  rw [text, List.mem_append, List.mem_cons] at mem
  rcases mem with mem | rfl | mem
  · exact .inl (writes.whole_digits char mem)
  · exact .inr rfl
  · exact .inl (writes.fraction_digits char mem)

/-- An exponent has its letter. -/
theorem letter_mem_scientific (decimal : Decimal) : 'e' ∈ decimal.scientific := by
  rw [decimal.scientific_eq]
  exact List.mem_append_right _ List.mem_cons_self

/-- Which only the text with an exponent has. -/
theorem pointed_ne_scientific (first second : Decimal) : first.pointed ≠ second.scientific := by
  intro same
  rcases mem_pointed (same ▸ letter_mem_scientific second) with digit | point
  · exact absurd digit (by decide)
  · exact absurd point (by decide)

/-- **The text of a decimal number tells its value.** -/
theorem nearestDecimal_eq_of_decimal (same : Json.decimal first = Json.decimal second) :
    Binary64.nearestDecimal first = Binary64.nearestDecimal second := by
  rcases decimal_eq first with text | text <;> rcases decimal_eq second with text' | text' <;>
    rw [text, text'] at same
  · exact Binary64.nearest_congr (Binary64.denominator_pos _) (Binary64.denominator_pos _)
      (Decimal.ratio_eq_of_pointed same)
  · exact absurd same (pointed_ne_scientific _ _)
  · exact absurd same.symm (pointed_ne_scientific _ _)
  · rw [Decimal.scientific_inj same]

/-- The text of a decimal number has a point or an exponent. -/
theorem mark_mem_decimal (decimal : Decimal) :
    '.' ∈ Json.decimal decimal ∨ 'e' ∈ Json.decimal decimal := by
  rcases decimal_eq decimal with text | text <;> rw [text]
  · obtain ⟨whole, fraction, text', -⟩ := decimal.exists_pointed
    rw [text']
    exact .inl (List.mem_append_right _ List.mem_cons_self)
  · exact .inr (letter_mem_scientific decimal)

/-- What the text of a number consists of. -/
def IsNumeric (char : Char) : Prop := char.isDigit = true ∨ char ∈ ['.', 'e', '+', '-']

instance : DecidablePred IsNumeric := fun _ => inferInstanceAs (Decidable (_ ∨ _))

theorem isNumeric_decimal {decimal : Decimal} {char : Char} (mem : char ∈ Json.decimal decimal) :
    IsNumeric char := by
  have point : ∀ {char : Char}, char = '.' → IsNumeric char := by
    rintro _ rfl
    exact .inr (by simp)
  rcases decimal_eq decimal with text | text <;> rw [text] at mem
  · exact (mem_pointed mem).elim .inl point
  · rw [decimal.scientific_eq, List.mem_append, List.mem_cons, List.mem_cons] at mem
    rcases mem with front | rfl | rfl | behind
    · exact (Decimal.mem_mantissa front).elim (.inl ∘ decimal.allDigits_figures char) point
    · exact .inr (by simp)
    · exact .inr (by split_ifs <;> simp)
    · exact .inl (Decimal.allDigits_figures ⟨_, 0⟩ char behind)

/-- It begins with a digit. -/
theorem head?_decimal (decimal : Decimal) :
    ∃ digit, (Json.decimal decimal).head? = some digit ∧ digit.isDigit = true := by
  rcases decimal_eq decimal with text | text <;> rw [text]
  · obtain ⟨whole, fraction, text', writes⟩ := decimal.exists_pointed
    obtain ⟨digit, whole, rfl⟩ := List.exists_cons_of_ne_nil writes.whole_ne_nil
    rw [text']
    exact ⟨digit, rfl, writes.whole_digits digit List.mem_cons_self⟩
  · obtain ⟨digit, figures, split⟩ := List.exists_cons_of_ne_nil decimal.figures_ne_nil
    have front := Decimal.head?_mantissa decimal.figures
    refine ⟨digit, ?_, decimal.allDigits_figures digit (split ▸ List.mem_cons_self)⟩
    rw [split] at front
    rw [decimal.scientific_eq, split, List.head?_append, front]
    rfl

/-- **The text of a real is that of a decimal number that is read as it.** -/
theorem exists_decimal (finite : number.isFinite = true) :
    ∃ decimal : Decimal,
      real number = (if number.isNegative then ['-'] else []) ++ Json.decimal decimal
        ∧ Binary64.nearestDecimal decimal = number.magnitude := by
  unfold real
  rw [if_pos finite]
  by_cases zero : number.magnitude = 0
  · refine ⟨⟨0, 0⟩, ?_, ?_⟩
    · rw [if_pos zero]
      rfl
    · rw [zero]
      exact Binary64.nearest_zero (Binary64.denominator_pos ⟨0, 0⟩)
  · exact ⟨_, by rw [if_neg zero],
      Binary64.nearestDecimal_shortest .even (of_decide_eq_true finite)⟩

/-- **The text of a finite real tells the real.** -/
theorem real_inj (finite : number.isFinite = true) (finite' : number'.isFinite = true)
    (same : real number = real number') : number = number' := by
  obtain ⟨decimal, text, nearest⟩ := exists_decimal finite
  obtain ⟨decimal', text', nearest'⟩ := exists_decimal finite'
  rw [text, text'] at same
  -- a sign in front of one of them only would stand for the first digit of the other
  have unsigned : ∀ {decimal decimal' : Decimal},
      '-' :: Json.decimal decimal ≠ Json.decimal decimal' := by
    intro decimal decimal' same
    obtain ⟨digit, first, isDigit⟩ := head?_decimal decimal'
    rw [← same] at first
    obtain rfl := Option.some.inj first
    exact absurd isDigit (by decide)
  have sign : number.isNegative = number'.isNegative := by
    cases negative : number.isNegative <;> cases negative' : number'.isNegative
    case false.true =>
      rw [negative, negative'] at same
      exact (unsigned same.symm).elim
    case true.false =>
      rw [negative, negative'] at same
      exact (unsigned same).elim
    all_goals rfl
  rw [sign] at same
  have value := nearestDecimal_eq_of_decimal (List.append_cancel_left same)
  exact Binary64.eq_of_magnitude_eq sign (nearest.symm.trans (value.trans nearest'))

end Json

end TableDump
