import TableDump.Binary64.Basic

/-!
# The shortest decimal that reads back

A binary number is written with as few digits as identify it: the decimal
number written is read as that number again (`nearestDecimal`), and no number
with fewer digits is.

Fewer digits means a coarser grid of decimal numbers. So the grids
`10 ^ exponent` are tried from coarse to fine, and the first grid wins on which
some point reads back. Of a grid only the two points on either side of the
value can: if any point reads back, the nearer of these does. When both do,
the nearer one is taken, and `Tie` settles the case that they are equally near.

Seventeen digits identify any number, so the search ends; should it not, the
exact value is a decimal number too.
-/

namespace TableDump.Binary64

/-- Which of two equally near decimal numbers is written. -/
inductive Tie where
  /-- The one with the even last digit. -/
  | even
  /-- The larger one. -/
  | up
  deriving DecidableEq, Repr

/-- Is a decimal number read as `magnitude`? -/
def readsBack (magnitude : Nat) (decimal : Decimal) : Bool :=
  nearestDecimal decimal == magnitude

/-- The largest multiple of `10 ^ exponent` that is not above the value of
`magnitude`, and twice the distance of the value from it compared to the width
of the grid. -/
def gridPoint (magnitude : Nat) (exponent : Int) : Nat × Ordering :=
  let grid : Decimal := ⟨1, exponent⟩
  let dividend := units magnitude * grid.denominator
  let divisor := unitsPerOne * grid.numerator
  (dividend / divisor, compare (2 * (dividend % divisor)) divisor)

/-- Is the upper of two neighbouring points taken, when both read back? -/
def takesUpper (tie : Tie) (lower : Nat) : Ordering → Bool
  | .lt => false
  | .gt => true
  | .eq =>
    match tie with
    | .up => true
    | .even => lower % 2 == 1

/-- The point of the grid `10 ^ exponent` that is written for `magnitude`, if
one reads back. -/
def onGrid? (tie : Tie) (magnitude : Nat) (exponent : Int) : Option Decimal :=
  let point := gridPoint magnitude exponent
  let lower : Decimal := ⟨point.1, exponent⟩
  let upper : Decimal := ⟨point.1 + 1, exponent⟩
  let first := if takesUpper tie point.1 point.2 then upper else lower
  let second := if takesUpper tie point.1 point.2 then lower else upper
  if readsBack magnitude first then some first
  else if readsBack magnitude second then some second
  else none

/-- The value of a magnitude as a decimal number: a unit is `5 ^ 1074` of the
places that `10 ^ -1074` stands for. -/
def exact (magnitude : Nat) : Decimal := ⟨units magnitude * Nat.pow 5 1074, -1074⟩

/-- Tries `count` grids, from `10 ^ exponent` to finer ones. -/
def coarsest (tie : Tie) (magnitude : Nat) (exponent : Int) : (count : Nat) → Decimal
  | 0 => exact magnitude
  | count + 1 =>
    (onGrid? tie magnitude exponent).getD (coarsest tie magnitude (exponent - 1) count)

/-- **The decimal number with the fewest digits that reads back** as
`magnitude`, which is finite and not zero. The first grid is coarser than the
value: the units of one have 324 digits. -/
def shortest (tie : Tie) (magnitude : Nat) : Decimal :=
  coarsest tie magnitude ((units magnitude).repr.length - 323) 24

end TableDump.Binary64
