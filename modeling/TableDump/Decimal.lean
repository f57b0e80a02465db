/-!
# Decimal numbers and how they are written

A decimal number is a whole number of units `10 ^ exponent`. There are two
ways to write one: with its digits in their places (`positional`), or with one
digit before the point and an exponent (`scientific`). Which is used, and
whether a whole number gets a fraction, is for the format to say that the
number is written in.
-/

namespace TableDump

/-- The number `digits * 10 ^ exponent`. -/
structure Decimal where
  /-- The significant digits, as a whole number. -/
  digits : Nat
  /-- The place of the last of them. -/
  exponent : Int
  deriving DecidableEq, Repr

namespace Decimal

/-- The numerator of the number as a fraction of whole numbers. -/
def numerator (decimal : Decimal) : Nat := decimal.digits * Nat.pow 10 decimal.exponent.toNat

/-- The denominator of the number as a fraction of whole numbers. -/
def denominator (decimal : Decimal) : Nat := Nat.pow 10 (-decimal.exponent).toNat

/-- The digits of the number, as text. -/
def figures (decimal : Decimal) : List Char := decimal.digits.repr.toList

/-- How many of the figures stand before the point; not positive if the number
begins with zeros after the point. -/
def pointAt (decimal : Decimal) : Int := decimal.figures.length + decimal.exponent

/-- So many zeros. -/
def zeros (count : Nat) : List Char := List.replicate count '0'

/-- **All digits in their places.** A whole number is followed by a point and
one zero if `fraction` says so. -/
def positional (fraction : Bool) (decimal : Decimal) : List Char :=
  let figures := decimal.figures
  match decimal.pointAt with
  | .ofNat whole =>
    if whole = 0 then '0' :: '.' :: figures
    else if whole < figures.length then figures.take whole ++ '.' :: figures.drop whole
    else figures ++ zeros (whole - figures.length) ++ if fraction then ['.', '0'] else []
  | .negSucc missing => '0' :: '.' :: (zeros (missing + 1) ++ figures)

/-- **One digit before the point**, the other digits, if any, after it, and the
exponent with its sign. -/
def scientific (decimal : Decimal) : List Char :=
  let exponent := decimal.pointAt - 1
  let mantissa :=
    match decimal.figures with
    | first :: second :: rest => first :: '.' :: second :: rest
    | figures => figures
  mantissa ++ 'e' :: (if exponent < 0 then '-' else '+') :: exponent.natAbs.repr.toList

end Decimal

end TableDump
