/-!
# Powers

Five exponents name an operation of their own: the reciprocal, one, the square root, the number
itself and its square, each rounded once. They differ from the general power in the last digit
and, for the square root, at -0.0 and the negative infinity.
-/
namespace Reckon.Number

/-- The number `x` to the power `y`. -/
def power (x y : Float) : Float :=
  if y == -1.0 then 1.0 / x
  else if y == 0.0 then 1.0
  else if y == 0.5 then Float.sqrt x
  else if y == 1.0 then x
  else if y == 2.0 then x * x
  else Float.pow x y

end Reckon.Number
