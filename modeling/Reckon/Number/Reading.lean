import Reckon.Text.Blank
import Reckon.Number.Numeral

/-!
# Numbers in free text

Outside expressions a number may have blanks around it, a sign, digits of any script, and an
underscore between two digits; a double may also be infinite or not a number.
-/
namespace Reckon.Number

/-- The blanks that may stand around a number: all but the four information separators. -/
def isPadding (c : Char) : Bool :=
  Text.isBlank c && !decide (28 ≤ c.toNat ∧ c.toNat ≤ 31)

/-- Removes the underscores of a text, each of which has to stand between two digits.
`afterDigit` tells whether a digit stands before the text. -/
def dropUnderscores (afterDigit : Bool) : List Char → Option (List Char)
  | [] => some []
  | c :: rest =>
    if c = '_' then
      match rest with
      | [] => none
      | next :: _ => if afterDigit && next.isDigit then dropUnderscores false rest else none
    else (dropUnderscores c.isDigit rest).map (c :: ·)

/-- The text without its padding and underscores, in ASCII digits. -/
def normalized? (text : List Char) : Option (List Char) :=
  let digits := text.map fun c => (Text.asciiDigit? c).getD c
  dropUnderscores false (Text.trim isPadding digits)

/-- Whether the text has a minus sign, and the text without a sign. -/
def splitSign : List Char → Bool × List Char
  | [] => (false, [])
  | c :: rest => if c = '-' then (true, rest) else if c = '+' then (false, rest) else (false, c :: rest)

/-- The pattern of the double that a normalized text without a sign writes. -/
def readMagnitude? (text : List Char) : Option Nat :=
  let lower := text.map Char.toLower
  if lower = ['i', 'n', 'f'] ∨ lower = ['i', 'n', 'f', 'i', 'n', 'i', 't', 'y'] then some infinite
  else if lower = ['n', 'a', 'n'] then some (magnitude nan)
  else
    let scanned := Numeral.scan text
    if scanned.2.isEmpty && scanned.1.hasDigit then some scanned.1.decimal.nearest else none

/-- The double that a text writes. -/
def readFloat? (text : List Char) : Option Float :=
  (normalized? text).bind fun plain =>
    (readMagnitude? (splitSign plain).2).map (signed (splitSign plain).1)

/-- Longer texts are not read as integers. -/
def integerDigitLimit : Nat := 4300

/-- The integer that a text writes. -/
def readInteger? (text : List Char) : Option Int :=
  (normalized? text).bind fun plain =>
    let digits := (splitSign plain).2
    if !digits.isEmpty && digits.all Char.isDigit && decide (digits.length ≤ integerDigitLimit) then
      let value : Int := Text.digitsValue digits
      some (if (splitSign plain).1 then -value else value)
    else none

end Reckon.Number
