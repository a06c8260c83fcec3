import Reckon.Number.Magnitude

/-!
# The logarithm of the gamma function

A rational approximation with thirteen terms, for arguments from one on. It estimates the size of a
factorial before the exact integer is built.
-/
namespace Reckon.Builtin

/-- The shift of the approximation. -/
def gammaShift : Float := 6.024680040776729583740234375

/-- The coefficients of the numerator, the constant one first. -/
def gammaNumerator : List Float :=
  [23531376880.410759688572007674451636754734846804940,
   42919803642.649098768957899047001988850926355848959,
   35711959237.355668049440185451547166705960488635843,
   17921034426.037209699919755754458931112671403265390,
   6039542586.3520280050642916443072979210699388420708,
   1439720407.3117216736632230727949123939715485786372,
   248874557.86205415651146038641322942321632125127801,
   31426415.585400194380614231628318205362874684987640,
   2876370.6289353724412254090516208496135991145378768,
   186056.26539522349504029498971604569928220784236328,
   8071.6720023658162106380029022722506138218516325024,
   210.82427775157934587250973392071336271166969580291,
   2.5066282746310002701649081771338373386264310793408]

/-- The coefficients of the denominator, the constant one first. -/
def gammaDenominator : List Float :=
  [0.0, 39916800.0, 120543840.0, 150917976.0, 105258076.0, 45995730.0, 13339535.0, 2637558.0,
   357423.0, 32670.0, 1925.0, 66.0, 1.0]

/-- The quotient of the two polynomials at `x`. From five on both are taken in powers of `1 / x`,
so that neither overflows. -/
def gammaQuotient (x : Float) : Float :=
  if x < 5.0 then
    let polynomial := List.foldr (fun c total => total * x + c) 0.0
    polynomial gammaNumerator / polynomial gammaDenominator
  else
    let polynomial := List.foldl (fun total c => total / x + c) 0.0
    polynomial gammaNumerator / polynomial gammaDenominator

/-- The logarithm of `(x - 1)!` for `x` from one on, or nothing if it is past the largest double. -/
def logGamma? (x : Float) : Option Float :=
  if x == 1.0 || x == 2.0 then some 0.0
  else
    let scale := Float.log (gammaQuotient x) - gammaShift
    let value := scale + (x - 0.5) * (Float.log (x + gammaShift - 0.5) - 1.0)
    if Number.isFinite value then some value else none

end Reckon.Builtin
