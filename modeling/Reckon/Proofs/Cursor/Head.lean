import Reckon.Proofs.Number.Literal

/-!
# A reading head

A cursor keeps the rest of its text. A head keeps its position and the character that it read there
last, and looks at the text again for a lexeme only. It reads anew after every move, goes over blanks
one by one, and where it has to go back it reads the character there once more. Started at the same
place, it finds what a cursor finds, and it stands where the cursor stands.
-/
namespace Reckon
open Number

/-- A position in a text, and the character that was last read there, NUL at the end. -/
structure Head where
  text : List Char
  pos : Nat
  ch : Char
  deriving DecidableEq, Repr

namespace Head

/-- The head at the start of a text. -/
def ofText (text : List Char) : Head := ⟨text, 0, text.headD '\x00'⟩

def atEnd (h : Head) : Bool := decide (h.text.length ≤ h.pos)

/-- Goes to a position and reads the character there. -/
def seek (pos : Nat) (h : Head) : Head := ⟨h.text, pos, h.text.getD pos '\x00'⟩

/-- Moves by `n` characters in either direction, but not before the start. -/
def advance (n : Int) (h : Head) : Head := h.seek (h.pos + n).toNat

/-- Moves over all blanks from here on, one after the other. -/
def skipBlanks (h : Head) : Head :=
  if h.atEnd then h else if Text.isBlank h.ch then (h.advance 1).skipBlanks else h
termination_by h.text.length - h.pos
decreasing_by
  have hinside : h.pos < h.text.length := by simpa [atEnd] using ‹¬h.atEnd = true›
  change h.text.length - (h.pos + 1 : Int).toNat < h.text.length - h.pos
  omega

/-- Skips blanks and consumes `expected` if it is the next character, and goes back if not. -/
def consumeIf (expected : List Char) (h : Head) : Bool × Head :=
  let next := h.skipBlanks
  if !next.atEnd && [next.ch] == expected then (true, next.advance 1) else (false, next.seek h.pos)

/-- Skips blanks, and then consumes and returns the next character if it is one of `operators`. -/
def nextOperator (operators : List Char) (h : Head) : Option Char × Head :=
  let next := h.skipBlanks
  if !next.atEnd && operators.contains next.ch then (some next.ch, next.advance 1) else (none, next)

def startsNumber (h : Head) : Bool := !h.atEnd && Cursor.isNumberStart h.ch

/-- Skips blanks and tells whether an operand can begin there. -/
def startsOperand (h : Head) : Bool × Head :=
  let next := h.skipBlanks
  (!next.atEnd && (['+', '-', '('].contains next.ch || next.startsNumber ||
    (Cursor.nameOf (next.text.drop next.pos)).isSome), next)

/-- Consumes the longest numeral from here on, and reads it as free text, with a zero in front of a
leading point. -/
def scanNumber (h : Head) : Except (List Char) Float × Head :=
  let lexeme := (Numeral.scan (h.text.drop h.pos)).1.text
  let value := match readFloat? (Numeral.withLeadingZero lexeme) with
    | some x => .ok x
    | none => .error lexeme
  (value, h.advance lexeme.length)

/-- Consumes a name and returns it, if there is one here. -/
def scanIdentifier (h : Head) : Option String × Head :=
  if h.atEnd then (none, h)
  else
    match Cursor.nameOf (h.text.drop h.pos) with
    | none => (none, h)
    | some name => (some (String.ofList name), h.advance name.length)

/-- The character under the head, unless it stands at the end. -/
def current (h : Head) : Option Char := if h.atEnd then none else some h.ch

end Head

namespace Cursor

/-- The cursor as a head. -/
def head (c : Cursor) : Head := ⟨c.text, c.pos, c.ch⟩

variable {c : Cursor}

theorem head_ofText (text : List Char) : (ofText text).head = .ofText text := rfl

@[simp] theorem head_moveTo (c : Cursor) (pos : Nat) : (c.moveTo pos).head = c.head.seek pos := by
  rw [head, Head.seek, ch, List.headD_eq_head?_getD, moveTo, List.head?_drop,
    ← List.getD_eq_getElem?_getD]
  rfl

theorem Sound.head_forward (h : c.Sound) (n : Nat) : (c.forward n).head = c.head.advance n := by
  rw [h.forward_eq, head_moveTo]
  rfl

theorem Sound.head_advance (h : c.Sound) (n : Int) : (c.advance n).head = c.head.advance n := by
  cases n with
  | ofNat k => exact h.head_forward k
  | negSucc k =>
    have hback : c.pos - (k + 1) = (c.pos + Int.negSucc k).toNat := by omega
    refine (head_moveTo c (c.pos - (k + 1))).trans ?_
    rw [hback]
    rfl

/-- Reading again at the position of a sound cursor brings nothing new. -/
theorem Sound.seek_head (h : c.Sound) : c.head.seek c.pos = c.head := by
  have hhere := h.forward_eq 0
  rw [Nat.add_zero] at hhere
  rw [← head_moveTo, ← hhere]
  rfl

theorem Sound.atEnd_head (h : c.Sound) : c.head.atEnd = c.rest.isEmpty := by
  rw [Sound] at h
  rw [Head.atEnd, h, Bool.eq_iff_iff, decide_eq_true_eq, List.isEmpty_iff, List.drop_eq_nil_iff]
  rfl

section
variable {ch : Char} {tail : List Char} (hrest : c.rest = ch :: tail)
include hrest

theorem ch_head : c.head.ch = ch := by
  rw [head, Cursor.ch, hrest]
  rfl

theorem rest_forward_one : (c.forward 1).rest = tail := by
  rw [forward, hrest]
  rfl

theorem skipBlanks_of_not (hch : Text.isBlank ch = false) : c.skipBlanks = c := by
  rw [skipBlanks, hrest, List.takeWhile_cons_of_neg (by simp [hch])]
  rfl

theorem skipBlanks_of_blank (hch : Text.isBlank ch = true) :
    c.skipBlanks = (c.forward 1).skipBlanks := by
  have hmoves : (c.forward 1).forward (tail.takeWhile Text.isBlank).length =
      c.forward (1 + (tail.takeWhile Text.isBlank).length) := by
    rw [forward, forward, forward, List.drop_drop, Nat.add_assoc]
  rw [skipBlanks, skipBlanks, rest_forward_one hrest, hmoves, hrest,
    List.takeWhile_cons_of_pos hch, List.length_cons, Nat.add_comm]

end

/-- One by one, the head goes over as many blanks as the cursor. -/
theorem Sound.head_skipBlanks (h : c.Sound) : c.head.skipBlanks = c.skipBlanks.head := by
  generalize hrest : c.rest = rest
  induction rest generalizing c with
  | nil =>
    rw [Head.skipBlanks, h.atEnd_head, Cursor.skipBlanks, hrest]
    rfl
  | cons ch tail ih =>
    rw [Head.skipBlanks, h.atEnd_head, hrest, ch_head hrest]
    cases hblank : Text.isBlank ch with
    | false =>
      rw [skipBlanks_of_not hrest hblank]
      rfl
    | true =>
      have hnext := ih (h.forward 1) (rest_forward_one hrest)
      rw [h.head_forward] at hnext
      rw [skipBlanks_of_blank hrest hblank]
      exact hnext

/-- What an operation of a cursor finds, and the head of where it ends. -/
def onHead {α : Type} (found : α × Cursor) : α × Head := (found.1, found.2.head)

theorem Sound.head_consumeIf (h : c.Sound) (expected : List Char) :
    c.head.consumeIf expected = onHead (c.consumeIf expected) := by
  have hback : c.skipBlanks.head.seek c.pos = c.head := h.seek_head
  rw [Head.consumeIf, Cursor.consumeIf, h.head_skipBlanks, h.skipBlanks.atEnd_head]
  cases hrest : c.skipBlanks.rest with
  | nil => exact congrArg (Prod.mk false) hback
  | cons ch tail =>
    rw [ch_head hrest]
    by_cases hexpected : [ch] = expected
    · simp only [hexpected, List.isEmpty_cons, beq_self_eq_true, Bool.not_false, Bool.and_self,
        if_true, onHead, h.skipBlanks.head_forward]
      rfl
    · simp only [hexpected, beq_eq_false_iff_ne.mpr hexpected, Bool.and_false, Bool.false_eq_true,
        if_false, onHead]
      exact congrArg (Prod.mk false) hback

theorem Sound.head_nextOperator (h : c.Sound) (operators : List Char) :
    c.head.nextOperator operators = onHead (c.nextOperator operators) := by
  rw [Head.nextOperator, Cursor.nextOperator, accept, h.head_skipBlanks, h.skipBlanks.atEnd_head]
  cases hrest : c.skipBlanks.rest with
  | nil => rfl
  | cons ch tail =>
    rw [ch_head hrest]
    by_cases hmem : ch ∈ operators
    · simp [hmem, onHead, h.skipBlanks.head_forward]
    · simp [hmem, onHead]

theorem Sound.head_startsNumber (h : c.Sound) : c.head.startsNumber = c.startsNumber := by
  rw [Head.startsNumber, Cursor.startsNumber, h.atEnd_head, current]
  cases hrest : c.rest with
  | nil => rfl
  | cons ch tail => simp [ch_head hrest]

theorem isSome_nameOf (text : List Char) :
    (nameOf text).isSome = text.head?.any Text.isNameStart := by
  cases text with
  | nil => rfl
  | cons ch tail => cases hstart : Text.isNameStart ch <;> simp [nameOf, hstart]

theorem Sound.head_startsOperand (h : c.Sound) : c.head.startsOperand = onHead c.startsOperand := by
  have hdrop : c.skipBlanks.head.text.drop c.skipBlanks.head.pos = c.skipBlanks.rest :=
    h.skipBlanks.symm
  rw [Head.startsOperand, h.head_skipBlanks]
  refine Prod.ext ?_ rfl
  simp only [h.skipBlanks.atEnd_head, h.skipBlanks.head_startsNumber, hdrop, isSome_nameOf,
    Cursor.startsNumber, Cursor.startsOperand, onHead, current]
  cases hrest : c.skipBlanks.rest with
  | nil => rfl
  | cons ch tail =>
    rw [Bool.eq_iff_iff]
    simp [ch_head hrest, isOperandStart, or_assoc]

theorem Sound.head_scanNumber (h : c.Sound) : c.head.scanNumber = onHead c.scanNumber := by
  have hwell := Grammar.wellFormed_scan c.rest
  have hread := Numeral.readFloat?_withLeadingZero hwell
  have hdrop : c.head.text.drop c.head.pos = c.rest := h.symm
  rw [Head.scanNumber, Cursor.scanNumber, hdrop]
  simp only [hread, onHead, h.head_forward]
  cases (Numeral.scan c.rest).1.hasDigitOrPoint <;> rfl

theorem Sound.head_scanIdentifier (h : c.Sound) :
    c.head.scanIdentifier = onHead c.scanIdentifier := by
  have hdrop : c.head.text.drop c.head.pos = c.rest := h.symm
  rw [Head.scanIdentifier, Cursor.scanIdentifier, hdrop, h.atEnd_head]
  cases hrest : c.rest with
  | nil => rfl
  | cons ch tail =>
    cases hname : nameOf (ch :: tail) with
    | none => simp [onHead]
    | some name => simp [onHead, h.head_forward]

theorem Sound.head_current (h : c.Sound) : c.head.current = c.current := by
  rw [Head.current, Cursor.current, h.atEnd_head]
  cases hrest : c.rest with
  | nil => rfl
  | cons ch tail => simp [ch_head hrest]

end Cursor

end Reckon
