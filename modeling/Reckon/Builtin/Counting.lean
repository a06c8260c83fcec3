import Reckon.Fault
import Reckon.Number.Remainder
import Reckon.Builtin.LogGamma

/-!
# Factorials, subsets and arrangements

Arguments are truncated to integers, and results are exact integers rounded to a double. Where an
estimate of its logarithm says that a result is past the largest double, the integer is not built.
-/
namespace Reckon.Builtin

/-- The number of arrangements of `k` out of `n` elements: `n * (n - 1) * …`, `k` factors. -/
def arrangements (n : Nat) : Nat → Nat
  | 0 => 1
  | k + 1 => arrangements n k * (n - k)

/-- The number of subsets with `k` out of `n` elements. Every partial product is divided by the
next factor exactly. -/
def subsets (n : Nat) : Nat → Nat
  | 0 => 1
  | k + 1 => subsets n k * (n - k) / (k + 1)

def factorial : Nat → Nat
  | 0 => 1
  | n + 1 => (n + 1) * factorial n

/-- The functions that sizes are estimated with. -/
structure Estimates where
  log : Float → Float
  /-- The logarithm of the gamma function, or nothing if it is past the largest double. -/
  logGamma? : Float → Option Float

/-- The estimates in double arithmetic. -/
def Estimates.double : Estimates := ⟨Float.log, Builtin.logGamma?⟩

/-- The largest double. -/
def largest : Float := Number.signed false (Number.infinite - 1)

/-- The infinite double. -/
def infinity : Float := Number.signed false Number.infinite

/-- An exact result as a double. -/
def rounded (n : Nat) : Float := Number.quotient n 1

/-- Whether an estimated logarithm is past that of the largest double. -/
def Estimates.exceeds (e : Estimates) (size : Float) : Bool :=
  decide (e.log largest < size)

/-- The logarithm of `n!`. -/
def Estimates.logFactorial (e : Estimates) (n : Nat) : Except Breakdown Float :=
  match e.logGamma? (rounded (n + 1)) with
  | some size => .ok size
  | none => .error .estimateTooLarge

/-- Whether `subsets n k` is estimated past the largest double. The first estimate is a lower
bound, which holds where the second one cancels out for huge `n`. -/
def Estimates.subsetsExceed (e : Estimates) (n k : Nat) : Except Breakdown Bool := do
  let lower := rounded k * e.log (Number.quotient n k)
  let all ← e.logFactorial n
  let left ← e.logFactorial (n - k)
  let chosen ← e.logFactorial k
  return e.exceeds lower || e.exceeds (all - left - chosen)

/-- Whether `arrangements n k` is estimated past the largest double. -/
def Estimates.arrangementsExceed (e : Estimates) (n k : Nat) : Except Breakdown Bool := do
  let lower := rounded k * e.log (rounded (n - k + 1))
  let all ← e.logFactorial n
  let left ← e.logFactorial (n - k)
  return e.exceeds lower || e.exceeds (all - left)

/-- The exact count, or infinity where the estimate exceeds the doubles. An empty choice is not
estimated. -/
def counted (exceeds : Nat → Nat → Except Breakdown Bool) (count : Nat → Nat → Nat) (n k : Nat) :
    Except Breakdown Float :=
  if k = 0 then .ok (rounded (count n k))
  else do
    if ← exceeds n k then return infinity else return rounded (count n k)

/-- Applies a count to truncated arguments: what is negative or not finite gives no number, and
nothing can be chosen past the end. -/
def onTruncated (count : Nat → Nat → Except Breakdown Float) (x y : Float) :
    Except Breakdown Float :=
  match Number.truncated? x, Number.truncated? y with
  | some (.ofNat n), some (.ofNat k) => if n < k then .ok 0.0 else count n k
  | _, _ => .ok Number.nan

/-- The number of subsets with `y` out of `x` elements. -/
def binomial (e : Estimates) : Float → Float → Except Breakdown Float :=
  onTruncated fun n k => counted e.subsetsExceed subsets n (min k (n - k))

/-- The number of arrangements of `y` out of `x` elements. -/
def permutations (e : Estimates) : Float → Float → Except Breakdown Float :=
  onTruncated (counted e.arrangementsExceed arrangements)

/-- The factorials past this one are past the largest double. -/
def factorialLimit : Nat := 170

/-- The factorial of the truncated argument. -/
def factorialOf (x : Float) : Float :=
  match Number.truncated? x with
  | some (.ofNat n) => if factorialLimit < n then infinity else rounded (factorial n)
  | some (.negSucc _) => Number.nan
  | none => if x == infinity then infinity else Number.nan

end Reckon.Builtin
