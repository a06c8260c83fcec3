import Reckon.Number.Magnitude

/-!
# Exact remainders

The remainder of a division that truncates its quotient: the difference is exact, and takes the
sign of the dividend.
-/
namespace Reckon.Number

/-- What is left of `x` after taking away `y` as often as it fits. -/
def remainder (x y : Float) : Float :=
  let m := magnitude x
  let n := magnitude y
  if infinite ≤ m ∨ infinite < n ∨ n = 0 then nan
  else if n = infinite then x
  else signed (isNegative x) (nearest (units m % units n) unitsPerOne)

end Reckon.Number
