import TableDump.Decimal

/-!
# Binary floating-point numbers of 64 bits

A number *is* its 64 bits: the highest is the sign, and the other 63, read as
a whole number, are the *magnitude*. Two numbers are equal when their bits
are, so that zero and minus zero differ and a NaN equals itself.

Nothing here computes with the machine's floating-point operations. The value
of a finite magnitude is a whole number of units of `2 ^ -1074`, the smallest
positive number, and in these units all of the arithmetic is arithmetic of
whole numbers (`units`). Up to `2 ^ 53` units the magnitude is the number of
units; from there on each further `2 ^ 52` magnitudes are spaced twice as far
apart as those before. Both directions follow that one rule: `units` reads a
magnitude, and `nearest` finds the magnitude whose value is nearest to a
fraction.
-/

namespace TableDump

/-- A 64-bit floating-point number, as its bits. -/
structure Binary64 where
  bits : UInt64
  deriving DecidableEq, Repr

namespace Binary64

/-- The place of the sign: `2 ^ 63`, above all magnitudes. -/
def signPlace : Nat := 0x8000000000000000

/-- How many magnitudes there are to each exponent: `2 ^ 52`. -/
def binade : Nat := 0x10000000000000

/-- The number with a sign and a magnitude. -/
def ofMagnitude (negative : Bool) (magnitude : Nat) : Binary64 :=
  ⟨UInt64.ofNat (magnitude + if negative then signPlace else 0)⟩

/-- Is the sign set? -/
def isNegative (number : Binary64) : Bool := signPlace ≤ number.bits.toNat

/-- All bits but the sign, as a whole number. -/
def magnitude (number : Binary64) : Nat := number.bits.toNat % signPlace

/-- The magnitude of the infinities. Smaller magnitudes are finite numbers,
larger ones are NaNs. -/
def infinity : Nat := 0x7FF * binade

/-- Is it neither infinite nor a NaN? -/
def isFinite (number : Binary64) : Bool := number.magnitude < infinity

/-! ## Values in units -/

/-- How often the spacing has doubled below a magnitude. -/
def doublings (magnitude : Nat) : Nat := magnitude / binade - 1

/-- **The value of a magnitude**, in units of `2 ^ -1074`. -/
def units (magnitude : Nat) : Nat :=
  (magnitude - doublings magnitude * binade) * Nat.pow 2 (doublings magnitude)

/-- The number of units in one. -/
def unitsPerOne : Nat := Nat.pow 2 1074

/-! ## The nearest number -/

/-- The whole number nearest to `dividend / divisor`; of two that are equally
near, the even one. -/
def divideNearest (dividend divisor : Nat) : Nat :=
  let quotient := dividend / divisor
  let twice := 2 * (dividend % divisor)
  if twice < divisor then quotient
  else if divisor < twice then quotient + 1
  else quotient + quotient % 2

/-- **The magnitude nearest to `numerator / denominator`**; of two that are
equally near, the even one. What is too large becomes infinite. -/
def nearest (numerator denominator : Nat) : Nat :=
  let scaled := numerator * unitsPerOne
  let doublings := (scaled / denominator).log2 - 52
  min infinity
    (doublings * binade + divideNearest scaled (denominator * Nat.pow 2 doublings))

/-- The magnitude nearest to a decimal number. -/
def nearestDecimal (decimal : Decimal) : Nat :=
  nearest decimal.numerator decimal.denominator

/-- The number that a decimal number without sign is read as, unless it is too
large. -/
def ofDecimal? (decimal : Decimal) : Option Binary64 :=
  let magnitude := nearestDecimal decimal
  if magnitude < infinity then some (ofMagnitude false magnitude) else none

/-- The magnitude nearest to the product of two finite magnitudes. -/
def product (first second : Nat) : Nat :=
  nearest (units first * units second) (unitsPerOne * unitsPerOne)

/-- The magnitude nearest to the quotient of two finite magnitudes. -/
def quotient (dividend divisor : Nat) : Nat := nearest (units dividend) (units divisor)

end Binary64

end TableDump
