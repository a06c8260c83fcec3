import Reckon.Number.Notation

/-!
# Rounding to decimal places

A double is rounded to a multiple of a power of ten: the multiple nearest to its exact value, a
half going to the even multiple, and then the double nearest to that.
-/
namespace Reckon.Number

/-- Past this many places every double is its own nearest multiple. -/
def placesLimit : Int := 323

/-- From here on down every double is nearer to zero than to the next multiple. -/
def placesFloor : Int := -308

/-- The pattern of the rounded value, infinite if that is past the largest double. -/
def roundedPattern (places : Int) (m : Nat) : Nat :=
  if placesLimit < places then m
  else if places < placesFloor then 0
  else
    let scaled := scaledFraction m (-places)
    (Decimal.mk (roundHalfEven scaled.1 scaled.2) (-places)).nearest

/-- Rounds to `places` places behind the point, or before it if negative. Nothing is returned for
a finite double whose rounded value is past the largest one; infinities and what is not a number
stay, and so does the sign. -/
def roundTo? (places : Int) (x : Float) : Option Float :=
  if isFinite x then
    let m := roundedPattern places (magnitude x)
    if m < infinite then some (signed (isNegative x) m) else none
  else some x

end Reckon.Number
