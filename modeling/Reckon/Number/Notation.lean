import Reckon.Number.Shortest
import Reckon.Text.Digit

/-!
# Written doubles

`text` writes a double with the fewest digits: with a point where the decimal exponent allows it,
otherwise in the form `1.5e+300`. `textWithDigits` writes it with a fixed number of digits in the
second form.
-/
namespace Reckon.Number

/-- A written magnitude: its digits, none of them a trailing zero unless asked for, and the power
of ten of the first. -/
structure Written where
  digits : List Char
  exponent : Int
  deriving DecidableEq, Repr

/-- The layout of a shortest text. -/
structure Layout where
  /-- The least exponent that is written with a point alone. -/
  least : Int
  /-- The first exponent past those. -/
  bound : Int

/-- From 0.0001 up to below 10^16 a number is written with a point alone. -/
def layout : Layout := ⟨-4, 16⟩

/-- The digits of a decimal without trailing zeros; a zero has one digit. -/
def Decimal.written (d : Decimal) : Written :=
  let all := Nat.toDigits 10 d.digits
  let kept := ((all.reverse.dropWhile (· == '0')).reverse)
  ⟨if kept.isEmpty then ['0'] else kept, d.exponent + (all.length : Int) - 1⟩

namespace Written

/-- The digits with a point behind the first one, if any follow it, and a signed exponent of at
least two digits. -/
def scientific (w : Written) : List Char :=
  let power := Nat.toDigits 10 w.exponent.natAbs
  let mantissa := match w.digits with
    | [] => []
    | [d] => [d]
    | d :: more => d :: '.' :: more
  mantissa ++ 'e' :: (if w.exponent < 0 then '-' else '+') ::
    (List.replicate (2 - power.length) '0' ++ power)

/-- The digits around a point, with the zeros that reach it, and at least one digit behind it. -/
def positional (w : Written) : List Char :=
  if w.exponent < 0 then
    '0' :: '.' :: (List.replicate (w.exponent.natAbs - 1) '0' ++ w.digits)
  else
    let places := w.exponent.toNat + 1
    let whole := w.digits.take places ++ List.replicate (places - w.digits.length) '0'
    let fraction := w.digits.drop places
    whole ++ '.' :: (if fraction.isEmpty then ['0'] else fraction)

def text (w : Written) : List Char :=
  if layout.least ≤ w.exponent ∧ w.exponent < layout.bound then w.positional else w.scientific

end Written

/-- The texts of the doubles that have no digits. -/
def infinityText : List Char := ['i', 'n', 'f']

def nanText : List Char := ['n', 'a', 'n']

/-- Puts a sign before the text of a magnitude. What is not a number shows no sign. -/
def withSign (x : Float) (finite : Nat → List Char) : List Char :=
  let m := magnitude x
  if infinite < m then nanText
  else
    let unsigned := if m = infinite then infinityText else finite m
    if isNegative x then '-' :: unsigned else unsigned

/-- The shortest text of a double. -/
def text (x : Float) : List Char :=
  withSign x fun m => (shortest m).written.text

/-- The nearest whole number to a fraction, a half going to the even one. -/
def roundHalfEven (num den : Nat) : Nat :=
  let whole := num / den
  let twice := 2 * (num % den)
  if twice < den ∨ (twice = den ∧ whole % 2 = 0) then whole else whole + 1

/-- A finite pattern with `count` digits, the last one rounded and trailing zeros kept. -/
def writtenRounded (count m : Nat) : Written :=
  if m = 0 then ⟨List.replicate count '0', 0⟩
  else
    let leading := leadingExponent m
    let scaled := scaledFraction m (leading - (count - 1 : Nat))
    let digits := Nat.toDigits 10 (roundHalfEven scaled.1 scaled.2)
    ⟨digits.take count, leading + (digits.length - count : Nat)⟩

/-- A double with `count` digits in scientific form. -/
def textWithDigits (count : Nat) (x : Float) : List Char :=
  withSign x fun m => (writtenRounded count m).scientific

end Reckon.Number
