import Reckon.Text.Blank
import Reckon.Text.Word
import Reckon.Number.Numeral

/-!
# Scanning a text

A cursor stands on a character of a text, or behind its end. Together with the position it keeps
the rest of the text, so that no operation looks at what lies before it. `consumeIf` leaves the
cursor where it was if it finds nothing, while `accept` stays behind the blanks it has skipped.
-/
namespace Reckon

/-- A position in a text, and the text from there on. -/
structure Cursor where
  text : List Char
  pos : Nat
  rest : List Char
  deriving DecidableEq, Repr

namespace Cursor

/-- The cursor at the start of a text. -/
def ofText (text : List Char) : Cursor := ⟨text, 0, text⟩

/-- The cursor at a position of the same text, which may lie behind the end. -/
def moveTo (c : Cursor) (pos : Nat) : Cursor := ⟨c.text, pos, c.text.drop pos⟩

/-- The rest is the text from the position on. Every operation keeps it so. -/
def Sound (c : Cursor) : Prop := c.rest = c.text.drop c.pos

theorem sound_ofText (text : List Char) : (ofText text).Sound := rfl

theorem sound_moveTo (c : Cursor) (pos : Nat) : (c.moveTo pos).Sound := rfl

/-- Whether no character is left. -/
def atEnd (c : Cursor) : Bool := c.rest.isEmpty

/-- The character under the cursor. -/
def current (c : Cursor) : Option Char := c.rest.head?

/-- The character under the cursor, or NUL behind the end. -/
def ch (c : Cursor) : Char := c.rest.headD '\x00'

/-- Moves over `n` characters, and on behind the end if there are fewer. -/
def forward (c : Cursor) (n : Nat) : Cursor := ⟨c.text, c.pos + n, c.rest.drop n⟩

theorem Sound.forward {c : Cursor} (h : c.Sound) (n : Nat) : (c.forward n).Sound := by
  simp only [Sound, Cursor.forward] at h ⊢
  rw [h, List.drop_drop]

theorem Sound.forward_eq {c : Cursor} (h : c.Sound) (n : Nat) :
    c.forward n = c.moveTo (c.pos + n) := by
  rw [Sound] at h
  rw [Cursor.forward, moveTo, h, List.drop_drop]

theorem Sound.current_eq {c : Cursor} (h : c.Sound) : c.current = c.text[c.pos]? := by
  rw [Sound] at h
  rw [current, h, List.head?_drop]

/-- Moves by `n` characters in either direction, but not before the start. -/
def advance (n : Int) (c : Cursor) : Cursor :=
  match n with
  | .ofNat k => c.forward k
  | .negSucc k => c.moveTo (c.pos - (k + 1))

theorem Sound.advance {c : Cursor} (h : c.Sound) (n : Int) : (c.advance n).Sound := by
  cases n with
  | ofNat k => exact h.forward k
  | negSucc k => exact sound_moveTo c _

/-- Moves over all blanks from here on. -/
def skipBlanks (c : Cursor) : Cursor :=
  c.forward (c.rest.takeWhile Text.isBlank).length

/-- What is left behind the blanks. -/
@[simp] theorem rest_skipBlanks (c : Cursor) :
    c.skipBlanks.rest = c.rest.dropWhile Text.isBlank := by
  simp only [skipBlanks, forward]
  conv => lhs; arg 2; rw [← List.takeWhile_append_dropWhile (p := Text.isBlank) (l := c.rest)]
  rw [List.drop_left]

theorem Sound.skipBlanks {c : Cursor} (h : c.Sound) : c.skipBlanks.Sound :=
  h.forward _

/-- Skips blanks and consumes `expected` if it is the next character. `expected` is compared with
that character as a whole, so only a text of one character is ever found. -/
def consumeIf (expected : List Char) (c : Cursor) : Bool × Cursor :=
  let next := c.skipBlanks
  match next.rest with
  | [] => (false, c)
  | ch :: _ => if [ch] = expected then (true, next.forward 1) else (false, c)

/-- Skips blanks, and then consumes the next character if `meaning` knows it. -/
def accept {α : Type} (meaning : Char → Option α) (c : Cursor) : Option α × Cursor :=
  let next := c.skipBlanks
  match next.rest with
  | [] => (none, next)
  | ch :: _ =>
    match meaning ch with
    | none => (none, next)
    | some found => (some found, next.forward 1)

/-- Skips blanks, and then consumes and returns the next character if it is one of `operators`. -/
def nextOperator (operators : List Char) : Cursor → Option Char × Cursor :=
  accept fun ch => if ch ∈ operators then some ch else none

/-- A literal starts with a digit or a point. -/
def isNumberStart (c : Char) : Bool := c.isDigit || c == '.'

/-- An operand starts with a sign, an opening parenthesis, a literal or a name. -/
def isOperandStart (c : Char) : Bool :=
  c == '+' || c == '-' || c == '(' || isNumberStart c || Text.isNameStart c

def startsNumber (c : Cursor) : Bool := c.current.any isNumberStart

/-- Skips blanks and tells whether an operand can begin there. -/
def startsOperand (c : Cursor) : Bool × Cursor :=
  let next := c.skipBlanks
  (next.current.any isOperandStart, next)

/-- Consumes the longest numeral from here on, and returns its value or, if it has neither a digit
nor a point before its exponent, its text. -/
def scanNumber (c : Cursor) : Except (List Char) Float × Cursor :=
  let numeral := (Number.Numeral.scan c.rest).1
  let lexeme := numeral.text
  (if numeral.hasDigitOrPoint then .ok numeral.toFloat else .error lexeme,
    c.forward lexeme.length)

/-- The name that a text starts with. -/
def nameOf : List Char → Option (List Char)
  | [] => none
  | ch :: rest => if Text.isNameStart ch then some (ch :: rest.takeWhile Text.isWord) else none

/-- Consumes a name and returns it, if there is one here. -/
def scanIdentifier (c : Cursor) : Option String × Cursor :=
  match nameOf c.rest with
  | none => (none, c)
  | some name => (some (String.ofList name), c.forward name.length)

end Cursor

end Reckon
