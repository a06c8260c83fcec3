/-!
# Doubles without their sign

The bit patterns of the doubles from zero to infinity are the numbers from `0` to `infinite`, in
the order of the values. `units` gives the value of a finite pattern exactly, as a multiple of the
least positive double 2^-1074, and `nearest` rounds a fraction to a pattern.
-/
namespace Reckon.Number

/-- The pattern of infinity. The patterns below it are those of the finite doubles. -/
def infinite : Nat := 0x7FF0000000000000

/-- The patterns below 2^52 are subnormal; every other one has this bit in its significand. -/
def leadingBit : Nat := 0x10000000000000

/-- The number of units in one. -/
def unitsPerOne : Nat := Nat.pow 2 1074

/-- The value of a finite pattern as a multiple of 2^-1074. -/
def units (m : Nat) : Nat :=
  if m < leadingBit then m
  else (leadingBit + m % leadingBit) * Nat.pow 2 (m / leadingBit - 1)

/-- The pattern nearest to `num / den`. A fraction halfway between two goes to the even one, and
whatever lies at least half a step past the largest double goes to infinity. -/
def nearest (num den : Nat) : Nat :=
  let scaled := num * unitsPerOne
  let whole := scaled / den
  let shift := whole.log2 - 52
  let below := shift * leadingBit + whole / Nat.pow 2 shift
  let step := Nat.pow 2 shift * den
  let twice := 2 * (scaled % step)
  let rounded :=
    if twice < step ∨ (twice = step ∧ below % 2 = 0) then below else below + 1
  min rounded infinite

/-- The bit that a negative double has above its pattern. -/
def signBit : Nat := 0x8000000000000000

/-- The double with a given sign and pattern. -/
def signed (negative : Bool) (m : Nat) : Float :=
  Float.ofBits (UInt64.ofNat (if negative then signBit + m else m))

/-- The pattern of a double without its sign. -/
def magnitude (x : Float) : Nat :=
  x.toBits.toNat % signBit

/-- Whether the sign bit is set. -/
def isNegative (x : Float) : Bool :=
  decide (signBit ≤ x.toBits.toNat)

/-- Neither infinite nor not a number. -/
def isFinite (x : Float) : Bool :=
  decide (magnitude x < infinite)

/-- The double that is not a number. -/
def nan : Float :=
  signed false (infinite + leadingBit / 2)

/-- The positive double nearest to a fraction. -/
def quotient (num den : Nat) : Float :=
  signed false (nearest num den)

/-- The double nearest to an integer; infinite past the range. -/
def ofInt (n : Int) : Float :=
  signed (decide (n < 0)) (nearest n.natAbs 1)

/-- The integer part of a finite double, towards zero. -/
def truncated? (x : Float) : Option Int :=
  if isFinite x then
    let whole : Int := (units (magnitude x) / unitsPerOne : Nat)
    some (if isNegative x then -whole else whole)
  else none

end Reckon.Number
