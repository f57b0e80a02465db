import Mathlib
import TableDump.Binary64.Shortest

/-!
# A number that is written is read again

The nearest number depends on a fraction only by its value, and the number
nearest to the value of a finite number is that number. So the exact value of a
number reads back, and with it whatever the search for the shortest decimal
comes to: it takes a decimal only if that reads back, and the exact value if it
finds none. No bound on the number of digits is needed for this.
-/

namespace TableDump.Binary64

/-! ## Fractions -/

/-- The nearest whole number is a matter of the ratio. -/
theorem divideNearest_mul_right (dividend divisor : Nat) {factor : Nat} (h : 0 < factor) :
    divideNearest (dividend * factor) (divisor * factor) = divideNearest dividend divisor := by
  have twice : 2 * (dividend * factor % (divisor * factor))
      = 2 * (dividend % divisor) * factor := by
    rw [Nat.mul_mod_mul_right, Nat.mul_assoc]
  unfold divideNearest
  dsimp only
  rw [Nat.mul_div_mul_right dividend divisor h, twice]
  simp only [Nat.mul_lt_mul_right h]

/-- A whole number is nearest to itself. -/
theorem divideNearest_mul_self (quotient : Nat) {divisor : Nat} (h : 0 < divisor) :
    divideNearest (quotient * divisor) divisor = quotient := by
  unfold divideNearest
  dsimp only
  rw [Nat.mul_mod_left, Nat.mul_div_cancel _ h, if_pos (by simpa using h)]

/-- So is the nearest number. -/
theorem nearest_mul_right (numerator denominator : Nat) {factor : Nat} (h : 0 < factor) :
    nearest (numerator * factor) (denominator * factor) = nearest numerator denominator := by
  unfold nearest
  dsimp only
  rw [Nat.mul_right_comm numerator factor unitsPerOne, Nat.mul_div_mul_right _ _ h,
    Nat.mul_right_comm denominator factor, divideNearest_mul_right _ _ h]

/-- **Equal fractions have the same nearest number.** -/
theorem nearest_congr {numerator denominator numerator' denominator' : Nat} (h : 0 < denominator)
    (h' : 0 < denominator') (same : numerator * denominator' = numerator' * denominator) :
    nearest numerator denominator = nearest numerator' denominator' := by
  rw [← nearest_mul_right numerator denominator h', same, Nat.mul_comm denominator denominator',
    nearest_mul_right numerator' denominator' h]

/-! ## Values -/

theorem unitsPerOne_pos : 0 < unitsPerOne := by
  unfold unitsPerOne
  generalize 1074 = exponent
  exact Nat.two_pow_pos exponent

/-- A magnitude is a number of spacings, and the spacing is known from it: it
has not doubled yet, or there are as many spacings as magnitudes to an
exponent. -/
theorem exists_spacings (magnitude : Nat) :
    ∃ spacings, magnitude = doublings magnitude * binade + spacings
      ∧ units magnitude = spacings * 2 ^ doublings magnitude
      ∧ spacings < 2 ^ 53 ∧ (doublings magnitude = 0 ∨ 2 ^ 52 ≤ spacings) := by
  have division := Nat.div_add_mod magnitude binade
  have small := Nat.mod_lt magnitude (show 0 < binade by decide)
  have size : binade = 2 ^ 52 := rfl
  refine ⟨magnitude - doublings magnitude * binade, ?_, rfl, ?_, ?_⟩
  all_goals
    unfold doublings
    rcases exponent : magnitude / binade with _ | exponent
    all_goals
      rw [exponent] at division
      rw [size] at *
      omega

/-- **The number nearest to the value of a number is that number.** -/
theorem nearest_units {magnitude : Nat} (h : magnitude < infinity) :
    nearest (units magnitude) unitsPerOne = magnitude := by
  obtain ⟨spacings, split, value, few, many⟩ := exists_spacings magnitude
  have exponent : (units magnitude).log2 - 52 = doublings magnitude := by
    rcases many with once | many
    · rw [value, once, Nat.pow_zero, Nat.mul_one]
      rcases Nat.eq_zero_or_pos spacings with rfl | pos
      · rfl
      · exact Nat.sub_eq_zero_of_le (Nat.le_of_lt_succ ((Nat.log2_lt pos.ne').2 few))
    · have log : (spacings * 2 ^ doublings magnitude).log2 = 52 + doublings magnitude := by
        rw [Nat.log2_eq_iff (Nat.mul_pos (by omega) (Nat.two_pow_pos _)).ne']
        refine ⟨?_, ?_⟩
        · rw [Nat.pow_add]
          exact Nat.mul_le_mul_right _ many
        · rw [Nat.add_right_comm, Nat.pow_add]
          exact Nat.mul_lt_mul_of_pos_right few (Nat.two_pow_pos _)
      rw [value, log, Nat.add_sub_cancel_left]
  have whole : divideNearest (units magnitude * unitsPerOne)
      (unitsPerOne * Nat.pow 2 (doublings magnitude)) = spacings := by
    have pos : 0 < unitsPerOne * 2 ^ doublings magnitude :=
      Nat.mul_pos unitsPerOne_pos (Nat.two_pow_pos _)
    rw [value, Nat.mul_assoc, Nat.mul_comm (2 ^ doublings magnitude)]
    exact divideNearest_mul_self spacings pos
  unfold nearest
  dsimp only
  rw [Nat.mul_div_cancel _ unitsPerOne_pos, exponent, whole, ← split, Nat.min_eq_right h.le]

/-- Zero is nearest to nothing. -/
theorem nearest_zero {denominator : Nat} (h : 0 < denominator) : nearest 0 denominator = 0 := by
  have zero : units 0 = 0 := rfl
  have here := nearest_units (show 0 < infinity by decide)
  rw [zero] at here
  rw [nearest_congr h unitsPerOne_pos (by rw [Nat.zero_mul, Nat.zero_mul]), here]

/-! ## Decimals -/

theorem denominator_pos (decimal : Decimal) : 0 < decimal.denominator :=
  Nat.pow_pos (by decide)

/-- A fraction with a power of two below is a decimal number. -/
theorem ratio_of_two_pow (units places : Nat) {exponent : Int} (h : exponent = -places) :
    (⟨units * Nat.pow 5 places, exponent⟩ : Decimal).numerator * Nat.pow 2 places
      = units * (⟨units * Nat.pow 5 places, exponent⟩ : Decimal).denominator := by
  have ten : 10 ^ places = 5 ^ places * 2 ^ places := by
    rw [← Nat.mul_pow]
  have whole : (-(places : Int)).toNat = 0 := Int.toNat_neg_natCast places
  unfold Decimal.numerator Decimal.denominator
  dsimp only
  rw [h, whole, Int.neg_neg, Int.toNat_natCast]
  show units * 5 ^ places * 10 ^ 0 * 2 ^ places = units * 10 ^ places
  rw [ten, Nat.pow_zero, Nat.mul_one, Nat.mul_assoc]

/-- The exact value of a number is read as that number. -/
theorem nearestDecimal_exact {magnitude : Nat} (h : magnitude < infinity) :
    nearestDecimal (exact magnitude) = magnitude := by
  refine Eq.trans (nearest_congr (denominator_pos _) unitsPerOne_pos ?_) (nearest_units h)
  unfold exact unitsPerOne
  -- the power is named, so that nobody computes it
  generalize power : (1074 : Nat) = places
  exact ratio_of_two_pow (units magnitude) places (by rw [← power]; rfl)

/-- What is found on a grid reads back. -/
theorem nearestDecimal_of_onGrid {tie : Tie} {magnitude : Nat} {exponent : Int} {decimal : Decimal}
    (h : onGrid? tie magnitude exponent = some decimal) : nearestDecimal decimal = magnitude := by
  have readsBack_iff : ∀ decimal, readsBack magnitude decimal = true
      ↔ nearestDecimal decimal = magnitude := fun _ => beq_iff_eq
  unfold onGrid? at h
  extract_lets point lower upper first second at h
  split at h
  case isTrue hfirst =>
    obtain rfl : first = decimal := Option.some.inj h
    exact (readsBack_iff first).1 hfirst
  split at h
  case isTrue hsecond =>
    obtain rfl : second = decimal := Option.some.inj h
    exact (readsBack_iff second).1 hsecond
  · simp at h

/-- **The shortest decimal is read as the number that it was made for.** -/
theorem nearestDecimal_shortest (tie : Tie) {magnitude : Nat} (h : magnitude < infinity) :
    nearestDecimal (shortest tie magnitude) = magnitude := by
  have tried : ∀ exponent count, nearestDecimal (coarsest tie magnitude exponent count)
      = magnitude := by
    intro exponent count
    induction count generalizing exponent with
    | zero =>
      rw [coarsest]
      exact nearestDecimal_exact h
    | succ count ih =>
      rw [coarsest]
      rcases found : onGrid? tie magnitude exponent with _ | decimal
      · exact ih _
      · exact nearestDecimal_of_onGrid found
  unfold shortest
  exact tried _ _

end TableDump.Binary64
