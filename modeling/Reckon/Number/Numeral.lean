import Reckon.Text.Digit
import Reckon.Number.Decimal

/-!
# Numerals

A numeral is digits, then perhaps a point and more digits, then perhaps an exponent. Each part
may be missing, but an exponent has at least one digit. `Numeral.scan` takes the longest numeral
that a text starts with, which may be empty.
-/
namespace Reckon.Number

/-- The exponent of a numeral as written: `e5`, `E-03`. -/
structure Exponent where
  mark : Char
  sign : Option Char
  digits : List Char
  deriving DecidableEq, Repr

/-- A numeral as written: `12`, `.5`, `1.`, `1.5E-3`. -/
structure Numeral where
  integral : List Char
  fraction : Option (List Char)
  exponent : Option Exponent
  deriving DecidableEq, Repr

namespace Exponent

def text (e : Exponent) : List Char :=
  e.mark :: (e.sign.toList ++ e.digits)

/-- The power of ten. -/
def value (e : Exponent) : Int :=
  if e.sign = some '-' then -(Text.digitsValue e.digits : Int) else Text.digitsValue e.digits

/-- A sign, if the text starts with one, and the text behind it. -/
def scanSign : List Char → Option Char × List Char
  | [] => (none, [])
  | c :: rest => if c = '+' ∨ c = '-' then (some c, rest) else (none, c :: rest)

/-- The exponent that a text starts with, if digits follow its mark and sign. -/
def scan : List Char → Option (Exponent × List Char)
  | [] => none
  | mark :: rest =>
    if mark = 'e' ∨ mark = 'E' then
      let signed := scanSign rest
      let digits := signed.2.takeWhile Char.isDigit
      if digits.isEmpty then none
      else some (⟨mark, signed.1, digits⟩, signed.2.dropWhile Char.isDigit)
    else none

theorem scanSign_append (text : List Char) :
    (scanSign text).1.toList ++ (scanSign text).2 = text := by
  cases text with
  | nil => rfl
  | cons c rest => simp only [scanSign]; split <;> simp

/-- What is scanned and what is left are the text. -/
theorem text_append_of_scan {t rest : List Char} {e : Exponent} (h : scan t = some (e, rest)) :
    e.text ++ rest = t := by
  cases t with
  | nil => simp [scan] at h
  | cons mark more =>
    simp only [scan] at h
    split at h
    · split at h
      · simp at h
      · simp only [Option.some.injEq, Prod.mk.injEq] at h
        obtain ⟨rfl, rfl⟩ := h
        simp [text, List.takeWhile_append_dropWhile, scanSign_append]
    · simp at h

end Exponent

namespace Numeral

def text (n : Numeral) : List Char :=
  n.integral ++ ((n.fraction.map ('.' :: ·)).getD [] ++ (n.exponent.map Exponent.text).getD [])

/-- A point, if the text starts with one, with the digits behind it, and the text after them. -/
def scanFraction : List Char → Option (List Char) × List Char
  | [] => (none, [])
  | c :: rest =>
    if c = '.' then (some (rest.takeWhile Char.isDigit), rest.dropWhile Char.isDigit)
    else (none, c :: rest)

/-- The longest numeral that a text starts with, and the text behind it. -/
def scan (text : List Char) : Numeral × List Char :=
  let integral := text.takeWhile Char.isDigit
  let fraction := scanFraction (text.dropWhile Char.isDigit)
  match Exponent.scan fraction.2 with
  | some (exponent, rest) => (⟨integral, fraction.1, some exponent⟩, rest)
  | none => (⟨integral, fraction.1, none⟩, fraction.2)

theorem scanFraction_append (t : List Char) :
    ((scanFraction t).1.map ('.' :: ·)).getD [] ++ (scanFraction t).2 = t := by
  cases t with
  | nil => rfl
  | cons c rest =>
    simp only [scanFraction]
    split
    · next h => simp [h, List.takeWhile_append_dropWhile]
    · simp

/-- What is scanned and what is left are the text. -/
theorem text_append_scan (t : List Char) : (scan t).1.text ++ (scan t).2 = t := by
  have hf := scanFraction_append (t.dropWhile Char.isDigit)
  simp only [scan]
  split
  · next e rest he =>
    have he := Exponent.text_append_of_scan he
    simp only [text, Option.map_some, Option.getD_some, List.append_assoc]
    rw [he, hf, List.takeWhile_append_dropWhile]
  · simp only [text, Option.map_none, Option.getD_none, List.append_nil, List.append_assoc]
    rw [hf, List.takeWhile_append_dropWhile]

/-- The number written, an empty part counting as zero. -/
def decimal (n : Numeral) : Decimal where
  digits := Text.digitsValue (n.integral ++ n.fraction.getD [])
  exponent := (n.exponent.map Exponent.value).getD 0 - (n.fraction.getD []).length

/-- The double nearest to the number written. -/
def toFloat (n : Numeral) : Float :=
  signed false n.decimal.nearest

/-- Whether a digit stands before the exponent. -/
def hasDigit (n : Numeral) : Bool :=
  !(n.integral.isEmpty && (n.fraction.getD []).isEmpty)

/-- Whether a digit or a point stands before the exponent. A lone point counts as zero. -/
def hasDigitOrPoint (n : Numeral) : Bool :=
  !(n.integral.isEmpty && n.fraction.isNone)

end Numeral

end Reckon.Number
