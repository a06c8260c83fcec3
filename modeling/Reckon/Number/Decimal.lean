import Reckon.Number.Magnitude

/-!
# Decimal fractions

A decimal is a whole number of digits times a power of ten. `Decimal.nearest` rounds it to a
double; exponents that alone decide the result are not expanded.
-/
namespace Reckon.Number

/-- The value `digits * 10 ^ exponent`. -/
structure Decimal where
  digits : Nat
  exponent : Int
  deriving DecidableEq, Repr

namespace Decimal

def numerator (d : Decimal) : Nat := d.digits * Nat.pow 10 d.exponent.toNat

def denominator (d : Decimal) : Nat := Nat.pow 10 (-d.exponent).toNat

theorem denominator_pos (d : Decimal) : 0 < d.denominator :=
  Nat.pow_pos (by decide)

/-- A power of ten past the largest double. -/
def tooLarge : Int := 310

/-- A power of ten below half the least positive double. -/
def tooSmall : Int := -330

/-- The pattern of the double nearest to the decimal. A nonzero decimal is at least
`10 ^ exponent`, and below `10 ^ (exponent + log2 digits / 3 + 1)`. -/
def nearest (d : Decimal) : Nat :=
  if d.digits = 0 then 0
  else if tooLarge ≤ d.exponent then infinite
  else if d.exponent + (d.digits.log2 / 3 + 1 : Nat) ≤ tooSmall then 0
  else Number.nearest d.numerator d.denominator

end Decimal

end Reckon.Number
