import Reckon.Number.Decimal

/-!
# The fewest digits that read back

Among the decimals that round to a given double, the one with the fewest digits is chosen, and of
those the one nearest to the double. For each number of digits only the two neighbours of the
value on that decimal grid can be candidates.
-/
namespace Reckon.Number

/-- The exponent of the first decimal digit of a positive finite pattern: the value lies between
that power of ten and the next. The least positive double is above 10^-324. -/
def leadingExponent (m : Nat) : Int :=
  ((Nat.toDigits 10 (units m * Nat.pow 10 324 / unitsPerOne)).length : Int) - 325

/-- The value of a pattern in units of `10 ^ exponent`, as a fraction. -/
def scaledFraction (m : Nat) (exponent : Int) : Nat × Nat :=
  (units m * Nat.pow 10 (-exponent).toNat, unitsPerOne * Nat.pow 10 exponent.toNat)

/-- The decimal with its last digit at `10 ^ exponent` that reads back as the pattern, if there is
one; the nearer one of two, and of two equally near the one with the even last digit. -/
def onGrid? (m : Nat) (exponent : Int) : Option Decimal :=
  let scaled := scaledFraction m exponent
  let low := scaled.1 / scaled.2
  let twice := 2 * (scaled.1 % scaled.2)
  let below : Decimal := ⟨low, exponent⟩
  let above : Decimal := ⟨low + 1, exponent⟩
  let belowFirst := decide (twice < scaled.2 ∨ (twice = scaled.2 ∧ low % 2 = 0))
  let first := if belowFirst then below else above
  let second := if belowFirst then above else below
  if first.nearest = m then some first
  else if second.nearest = m then some second
  else none

/-- The first hit on the grids of `count` and more digits, `more` further ones at most. -/
def shortestFrom (m : Nat) (leading : Int) (count : Nat) : Nat → Option Decimal
  | 0 => none
  | more + 1 =>
    (onGrid? m (leading - (count - 1 : Nat))).or (shortestFrom m leading (count + 1) more)

/-- Seventeen digits tell any two doubles apart. -/
def digitLimit : Nat := 17

/-- All digits of a finite pattern: one unit is `5 ^ 1074 * 10 ^ -1074`. -/
def expansion (m : Nat) : Decimal :=
  ⟨units m * Nat.pow 5 1074, -1074⟩

/-- The shortest decimal that reads back as a finite pattern. Should no grid have one, all digits
would read back. -/
def shortest (m : Nat) : Decimal :=
  if m = 0 then ⟨0, 0⟩
  else (shortestFrom m (leadingExponent m) 1 digitLimit).getD (expansion m)

end Reckon.Number
