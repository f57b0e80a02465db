import Mathlib
import TableDump.Decimal
import TableDump.Proofs.Nearest

/-!
# Decimal numbers in their places

A decimal number that is written with all digits in their places has a point
among them, or gets one with a zero behind it. Read without the point, its
digits write a whole number, and with the places behind the point that is the
number written (`Decimal.exists_pointed`). There is one case for each place the
point can stand at: in front of the figures, among them, or behind them.
-/

namespace TableDump

open Nat (ofDigitChars)

namespace Decimal

/-- All of the characters are digits. -/
def AllDigits (chars : List Char) : Prop := ∀ char ∈ chars, char.isDigit = true

theorem AllDigits.append {front back : List Char} (hfront : AllDigits front)
    (hback : AllDigits back) : AllDigits (front ++ back) :=
  fun char mem => (List.mem_append.1 mem).elim (hfront char) (hback char)

theorem allDigits_figures (decimal : Decimal) : AllDigits decimal.figures := by
  intro char mem
  rw [figures, Nat.toList_repr] at mem
  exact Nat.isDigit_of_mem_toDigits (by decide) (by decide) mem

theorem allDigits_zeros (count : Nat) : AllDigits (zeros count) := by
  intro char mem
  rw [List.eq_of_mem_replicate mem]
  rfl

/-- There is nothing else among them. -/
theorem AllDigits.not_mem {chars : List Char} (h : AllDigits chars) {mark : Char}
    (other : mark.isDigit = false) : mark ∉ chars :=
  fun mem => Bool.false_ne_true (other.symm.trans (h mark mem))

/-- A point is no digit. -/
theorem AllDigits.contains_point {chars : List Char} (h : AllDigits chars) :
    chars.contains '.' = false := by
  rw [Bool.eq_false_iff]
  intro found
  exact h.not_mem rfl (by simpa using found)

theorem figures_ne_nil (decimal : Decimal) : decimal.figures ≠ [] := by
  rw [figures, Nat.toList_repr]
  exact Nat.toDigits_ne_nil

/-- The figures write the digits. -/
theorem ofDigitChars_figures (decimal : Decimal) :
    ofDigitChars 10 decimal.figures 0 = decimal.digits := by
  rw [figures, Nat.toList_repr]
  exact Nat.ofDigitChars_ten_toDigits

/-- Zeros behind other digits shift them. -/
theorem ofDigitChars_append_zeros (chars : List Char) (count : Nat) :
    ofDigitChars 10 (chars ++ zeros count) 0 = 10 ^ count * ofDigitChars 10 chars 0 := by
  rw [Nat.ofDigitChars_append, zeros, Nat.ofDigitChars_replicate_zero]

/-- Zeros in front of other digits change nothing. -/
theorem ofDigitChars_zeros_append (count : Nat) (chars : List Char) :
    ofDigitChars 10 (zeros count ++ chars) 0 = ofDigitChars 10 chars 0 := by
  rw [Nat.ofDigitChars_append, zeros, Nat.ofDigitChars_replicate_zero, Nat.mul_zero]

/-- A number with places behind the point. -/
theorem ratio_of_neg {decimal : Decimal} {places : Nat} (h : decimal.exponent = -places) :
    decimal.numerator = decimal.digits ∧ decimal.denominator = 10 ^ places := by
  have whole : (-(places : Int)).toNat = 0 := Int.toNat_neg_natCast places
  unfold numerator denominator
  rw [h, whole, Int.neg_neg, Int.toNat_natCast]
  exact ⟨Nat.mul_one _, rfl⟩

/-- A number with zeros in front of the point. -/
theorem ratio_of_nonneg {decimal : Decimal} {count : Nat} (h : decimal.exponent = count) :
    decimal.numerator = decimal.digits * 10 ^ count ∧ decimal.denominator = 1 := by
  have whole : (-(count : Int)).toNat = 0 := Int.toNat_neg_natCast count
  unfold numerator denominator
  rw [h, whole, Int.toNat_natCast]
  exact ⟨rfl, rfl⟩

/-! ## The point -/

/-- **The digits on both sides of a point write the number.** -/
structure Writes (decimal : Decimal) (whole fraction : List Char) : Prop where
  whole_ne_nil : whole ≠ []
  fraction_ne_nil : fraction ≠ []
  whole_digits : AllDigits whole
  fraction_digits : AllDigits fraction
  ratio : ofDigitChars 10 (whole ++ fraction) 0 * decimal.denominator
    = decimal.numerator * 10 ^ fraction.length

variable {decimal : Decimal}

/-- All figures behind the point, and zeros before them. -/
theorem writes_behind {count : Nat}
    (h : decimal.exponent = -((count + decimal.figures.length : Nat) : Int)) :
    decimal.Writes ['0'] (zeros count ++ decimal.figures) where
  whole_ne_nil := List.cons_ne_nil _ _
  fraction_ne_nil := List.append_ne_nil_of_right_ne_nil _ decimal.figures_ne_nil
  whole_digits := allDigits_zeros 1
  fraction_digits := (allDigits_zeros count).append decimal.allDigits_figures
  ratio := by
    have digits : ofDigitChars 10 (zeros (count + 1) ++ decimal.figures) 0 = decimal.digits := by
      rw [ofDigitChars_zeros_append, ofDigitChars_figures]
    rw [(ratio_of_neg h).1, (ratio_of_neg h).2, ← List.append_assoc, List.length_append, zeros,
      List.length_replicate]
    exact congrArg (· * _) digits

/-- The point among the figures. -/
theorem writes_among {whole : Nat} (pos : 0 < whole) (inside : whole < decimal.figures.length)
    (h : decimal.exponent = -((decimal.figures.length - whole : Nat) : Int)) :
    decimal.Writes (decimal.figures.take whole) (decimal.figures.drop whole) where
  whole_ne_nil := by
    rw [Ne, List.take_eq_nil_iff, not_or]
    exact ⟨pos.ne', decimal.figures_ne_nil⟩
  fraction_ne_nil := by
    rw [Ne, List.drop_eq_nil_iff, Nat.not_le]
    exact inside
  whole_digits char mem := decimal.allDigits_figures char (List.mem_of_mem_take mem)
  fraction_digits char mem := decimal.allDigits_figures char (List.mem_of_mem_drop mem)
  ratio := by
    rw [List.take_append_drop, ofDigitChars_figures, (ratio_of_neg h).1, (ratio_of_neg h).2,
      List.length_drop]

/-- All figures before the point, and zeros behind them. -/
theorem writes_before {count : Nat} (h : decimal.exponent = count) :
    decimal.Writes (decimal.figures ++ zeros count) ['0'] where
  whole_ne_nil := List.append_ne_nil_of_left_ne_nil decimal.figures_ne_nil _
  fraction_ne_nil := List.cons_ne_nil _ _
  whole_digits := decimal.allDigits_figures.append (allDigits_zeros count)
  fraction_digits := allDigits_zeros 1
  ratio := by
    have digits := ofDigitChars_append_zeros (decimal.figures ++ zeros count) 1
    rw [ofDigitChars_append_zeros decimal.figures, ofDigitChars_figures] at digits
    rw [(ratio_of_nonneg h).1, (ratio_of_nonneg h).2, Nat.mul_one]
    refine Eq.trans digits ?_
    rw [List.length_singleton, Nat.mul_comm, Nat.mul_comm (10 ^ count)]

/-- **The text with a point** that a number is written with. -/
def pointed (decimal : Decimal) : List Char :=
  if (decimal.positional false).contains '.' then decimal.positional false
  else decimal.positional false ++ ".0".toList

/-- **What is written with a point is the number.** -/
theorem exists_pointed (decimal : Decimal) :
    ∃ whole fraction, decimal.pointed = whole ++ '.' :: fraction
      ∧ decimal.Writes whole fraction := by
  have sum : decimal.figures.length + decimal.exponent = decimal.pointAt := rfl
  have withPoint : ∀ {whole fraction : List Char},
      decimal.positional false = whole ++ '.' :: fraction →
      decimal.pointed = whole ++ '.' :: fraction := by
    intro whole fraction text
    unfold pointed
    rw [text, if_pos (by simp)]
  rcases place : decimal.pointAt with whole | missing
  · rw [place, Int.ofNat_eq_natCast] at sum
    rcases Nat.eq_zero_or_pos whole with rfl | pos
    · refine ⟨['0'], zeros 0 ++ decimal.figures, withPoint ?_, writes_behind ?_⟩
      · unfold positional
        rw [place]
        rfl
      · rw [Nat.zero_add]
        omega
    by_cases inside : whole < decimal.figures.length
    · refine ⟨_, _, withPoint ?_, writes_among pos inside ?_⟩
      · unfold positional
        rw [place]
        dsimp only
        rw [if_neg pos.ne', if_pos inside]
      · omega
    · have count : decimal.exponent = ((whole - decimal.figures.length : Nat) : Int) := by
        omega
      have text : decimal.positional false
          = decimal.figures ++ zeros (whole - decimal.figures.length) := by
        unfold positional
        rw [place]
        dsimp only
        rw [if_neg pos.ne', if_neg inside]
        exact List.append_nil _
      refine ⟨_, _, ?_, writes_before count⟩
      unfold pointed
      rw [text, if_neg]
      · rfl
      · rw [(decimal.allDigits_figures.append (allDigits_zeros _)).contains_point]
        exact Bool.false_ne_true
  · rw [place] at sum
    refine ⟨['0'], zeros (missing + 1) ++ decimal.figures, withPoint ?_, writes_behind ?_⟩
    · unfold positional
      rw [place]
      rfl
    · omega

end Decimal

end TableDump
