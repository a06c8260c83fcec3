import Reckon.Proofs.Cursor.Head

/-!
# Motions of a cursor

Every operation moves a cursor as far as the text around it says: over the blanks from there on, over
one character behind them, over the longest lexeme, or not at all. Whatever operations follow each
other, in either direction and past the end of the text, the cursor stays in step with the text, and
so does a head that keeps the character under it.
-/
namespace Reckon
open Number
open Grammar (Longest IsName IsNumeral WellFormed)
open Text (isBlank)

/-- What a cursor is asked for. -/
inductive Operation where
  | atEnd
  | advance (n : Int)
  | skipBlanks
  | consumeIf (expected : List Char)
  | nextOperator (operators : List Char)
  | startsNumber
  | startsOperand
  | scanNumber
  | scanIdentifier
  | current
  deriving DecidableEq, Repr

/-- Whether the operation stays behind the start of the text, from a given position. -/
def Operation.admits (pos : Nat) : Operation → Bool
  | .advance n => decide (0 ≤ (pos : Int) + n)
  | _ => true

/-- What an operation finds. -/
inductive Finding where
  | nothing
  | truth (value : Bool)
  | character (found : Option Char)
  | name (found : Option String)
  /-- A double, or the text that is none. -/
  | number (found : Except (List Char) Float)

/-- An operation, with where it starts, what it finds and where it ends. -/
structure Motion (σ : Type) where
  start : σ
  operation : Operation
  finding : Finding
  finish : σ

def Motion.map {σ τ : Type} (view : σ → τ) (m : Motion σ) : Motion τ :=
  ⟨view m.start, m.operation, m.finding, view m.finish⟩

/-- Operations one after the other. -/
def motions {σ : Type} (perform : Operation → σ → Finding × σ) : List Operation → σ → List (Motion σ)
  | [], _ => []
  | operation :: more, s =>
    let found := perform operation s
    ⟨s, operation, found.1, found.2⟩ :: motions perform more found.2

def Cursor.perform (operation : Operation) (c : Cursor) : Finding × Cursor :=
  match operation with
  | .atEnd => (.truth c.atEnd, c)
  | .advance n => (.nothing, c.advance n)
  | .skipBlanks => (.nothing, c.skipBlanks)
  | .consumeIf expected => (c.consumeIf expected).map .truth id
  | .nextOperator operators => (c.nextOperator operators).map .character id
  | .startsNumber => (.truth c.startsNumber, c)
  | .startsOperand => c.startsOperand.map .truth id
  | .scanNumber => c.scanNumber.map .number id
  | .scanIdentifier => c.scanIdentifier.map .name id
  | .current => (.character c.current, c)

def Head.perform (operation : Operation) (h : Head) : Finding × Head :=
  match operation with
  | .atEnd => (.truth h.atEnd, h)
  | .advance n => (.nothing, h.advance n)
  | .skipBlanks => (.nothing, h.skipBlanks)
  | .consumeIf expected => (h.consumeIf expected).map .truth id
  | .nextOperator operators => (h.nextOperator operators).map .character id
  | .startsNumber => (.truth h.startsNumber, h)
  | .startsOperand => h.startsOperand.map .truth id
  | .scanNumber => h.scanNumber.map .number id
  | .scanIdentifier => h.scanIdentifier.map .name id
  | .current => (.character h.current, h)

/-- From `start` up to `stop` the text has blanks only, and none at `stop`. -/
structure Blanks (text : List Char) (start stop : Nat) : Prop where
  le : start ≤ stop
  blank : ∀ i, start ≤ i → i < stop → ∃ ch ∈ text[i]?, isBlank ch = true
  stop : ∀ ch ∈ text[stop]?, isBlank ch = false

/-- What an operation finds in the text from a cursor on, and where it takes the cursor. -/
inductive Cursor.Moves (c : Cursor) : Operation → Finding → Cursor → Prop
  | atEnd : Moves c .atEnd (.truth (decide (c.text.length ≤ c.pos))) c
  | advance {n : Int} {pos : Nat} (h : (pos : Int) = c.pos + n) :
      Moves c (.advance n) .nothing (c.moveTo pos)
  | skipBlanks {pos : Nat} (h : Blanks c.text c.pos pos) :
      Moves c .skipBlanks .nothing (c.moveTo pos)
  | consumed {pos : Nat} {ch : Char} (h : Blanks c.text c.pos pos) (hch : c.text[pos]? = some ch) :
      Moves c (.consumeIf [ch]) (.truth true) (c.moveTo (pos + 1))
  /-- The cursor stays in front of the blanks. -/
  | refused {pos : Nat} {expected : List Char} (h : Blanks c.text c.pos pos)
      (hother : ∀ ch ∈ c.text[pos]?, [ch] ≠ expected) :
      Moves c (.consumeIf expected) (.truth false) c
  | operator {pos : Nat} {operators : List Char} {ch : Char} (h : Blanks c.text c.pos pos)
      (hch : c.text[pos]? = some ch) (hmem : ch ∈ operators) :
      Moves c (.nextOperator operators) (.character (some ch)) (c.moveTo (pos + 1))
  /-- The cursor stays behind the blanks. -/
  | noOperator {pos : Nat} {operators : List Char} (h : Blanks c.text c.pos pos)
      (hother : ∀ ch ∈ c.text[pos]?, ch ∉ operators) :
      Moves c (.nextOperator operators) (.character none) (c.moveTo pos)
  | startsNumber : Moves c .startsNumber (.truth (c.text[c.pos]?.any Cursor.isNumberStart)) c
  | startsOperand {pos : Nat} (h : Blanks c.text c.pos pos) :
      Moves c .startsOperand (.truth (c.text[pos]?.any Cursor.isOperandStart)) (c.moveTo pos)
  | number {n : Numeral} {rest : List Char} (hn : WellFormed n) (hmarked : n.hasDigitOrPoint = true)
      (htext : c.text.drop c.pos = n.text ++ rest) (hlongest : Longest IsNumeral n.text rest) :
      Moves c .scanNumber (.number (.ok n.toFloat)) (c.moveTo (c.pos + n.text.length))
  /-- What is no number is moved over, too. -/
  | noNumber {n : Numeral} {rest : List Char} (hn : WellFormed n)
      (hmarked : n.hasDigitOrPoint = false) (htext : c.text.drop c.pos = n.text ++ rest)
      (hlongest : Longest IsNumeral n.text rest) :
      Moves c .scanNumber (.number (.error n.text)) (c.moveTo (c.pos + n.text.length))
  | name {name rest : List Char} (htext : c.text.drop c.pos = name ++ rest)
      (hlongest : Longest IsName name rest) :
      Moves c .scanIdentifier (.name (some (String.ofList name))) (c.moveTo (c.pos + name.length))
  | noName (h : ∀ ch ∈ c.text[c.pos]?, Text.isNameStart ch = false) :
      Moves c .scanIdentifier (.name none) c
  | current : Moves c .current (.character c.text[c.pos]?) c

namespace Cursor

variable {c d : Cursor} {operation : Operation} {found : Finding}

theorem Moves.text_eq (h : c.Moves operation found d) : d.text = c.text := by
  cases h <;> rfl

/-- A cursor that has moved stands at a position of its text, or where it stood. -/
theorem Moves.sound (h : c.Moves operation found d) (hc : c.Sound) : d.Sound := by
  cases h <;> first | exact hc | exact sound_moveTo c _

theorem Sound.blanks (h : c.Sound) : Blanks c.text c.pos c.skipBlanks.pos := by
  refine ⟨Nat.le_add_right _ _, fun i hstart hstop => ?_, fun ch hch => ?_⟩
  · obtain ⟨j, rfl⟩ := Nat.exists_eq_add_of_le hstart
    have hj : j < (c.rest.takeWhile isBlank).length := Nat.lt_of_add_lt_add_left hstop
    have hrest : c.rest[j]? = some (c.rest.takeWhile isBlank)[j] := by
      conv_lhs => rw [← List.takeWhile_append_dropWhile (p := isBlank) (l := c.rest)]
      rw [List.getElem?_append_left hj, List.getElem?_eq_getElem hj]
    rw [Sound] at h
    refine ⟨_, ?_, List.mem_takeWhile_imp (List.getElem_mem hj)⟩
    rw [← List.getElem?_drop, ← h, hrest]
    rfl
  · have hbehind : c.skipBlanks.current = (c.rest.dropWhile isBlank).head? := by
      rw [current, rest_skipBlanks]
    exact Grammar.head?_dropWhile_eq_false ch (hbehind ▸ h.skipBlanks.current_eq ▸ hch)

theorem Sound.skipBlanks_eq (h : c.Sound) : c.skipBlanks = c.moveTo c.skipBlanks.pos :=
  h.forward_eq _

/-- One character behind the blanks. -/
theorem Sound.next_eq (h : c.Sound) : c.skipBlanks.forward 1 = c.moveTo (c.skipBlanks.pos + 1) :=
  h.skipBlanks.forward_eq 1

/-- The character that an operation finds behind the blanks. -/
theorem Sound.getElem?_behind (h : c.Sound) : c.text[c.skipBlanks.pos]? = c.skipBlanks.rest.head? :=
  h.skipBlanks.current_eq.symm

theorem Sound.consumeIf_moves (h : c.Sound) (expected : List Char) :
    c.Moves (.consumeIf expected) (.truth (c.consumeIf expected).1) (c.consumeIf expected).2 := by
  have hbehind := h.getElem?_behind
  rw [Cursor.consumeIf]
  cases hrest : c.skipBlanks.rest with
  | nil =>
    rw [hrest] at hbehind
    exact .refused h.blanks (by simp [hbehind])
  | cons ch tail =>
    rw [hrest] at hbehind
    by_cases hexpected : [ch] = expected
    · subst hexpected
      simp only [if_true, h.next_eq]
      exact .consumed h.blanks hbehind
    · simp only [if_neg hexpected]
      exact .refused h.blanks (by simpa [hbehind] using hexpected)

theorem Sound.nextOperator_moves (h : c.Sound) (operators : List Char) :
    c.Moves (.nextOperator operators) (.character (c.nextOperator operators).1)
      (c.nextOperator operators).2 := by
  have hbehind := h.getElem?_behind
  rw [Cursor.nextOperator, accept]
  cases hrest : c.skipBlanks.rest with
  | nil =>
    rw [hrest] at hbehind
    simp only
    rw [h.skipBlanks_eq]
    exact .noOperator h.blanks (by simp [hbehind])
  | cons ch tail =>
    rw [hrest] at hbehind
    by_cases hmem : ch ∈ operators
    · simp only [if_pos hmem, h.next_eq]
      exact .operator h.blanks hbehind hmem
    · simp only [if_neg hmem]
      rw [h.skipBlanks_eq]
      exact .noOperator h.blanks (by simpa [hbehind] using hmem)

theorem Sound.scanNumber_moves (h : c.Sound) :
    c.Moves .scanNumber (.number c.scanNumber.1) c.scanNumber.2 := by
  have hwell := Grammar.wellFormed_scan c.rest
  have hlongest := Grammar.longest_scan c.rest
  have htext : c.text.drop c.pos = (Numeral.scan c.rest).1.text ++ (Numeral.scan c.rest).2 :=
    h.symm.trans (Numeral.text_append_scan c.rest).symm
  simp only [Cursor.scanNumber, h.forward_eq]
  cases hmarked : (Numeral.scan c.rest).1.hasDigitOrPoint with
  | true => exact .number hwell hmarked htext hlongest
  | false => exact .noNumber hwell hmarked htext hlongest

theorem Sound.scanIdentifier_moves (h : c.Sound) :
    c.Moves .scanIdentifier (.name c.scanIdentifier.1) c.scanIdentifier.2 := by
  rw [Cursor.scanIdentifier]
  cases hname : nameOf c.rest with
  | none =>
    have hstart := isSome_nameOf c.rest
    rw [hname, Option.isSome_none, ← current, h.current_eq] at hstart
    refine .noName fun ch hch => ?_
    rw [Option.mem_def.mp hch] at hstart
    exact hstart.symm
  | some name =>
    obtain ⟨rest, htext, hlongest⟩ := Grammar.longest_of_nameOf hname
    simp only [h.forward_eq]
    exact .name (h.symm.trans htext) hlongest

theorem Sound.advance_moves (h : c.Sound) {n : Int} (hn : 0 ≤ (c.pos : Int) + n) :
    c.Moves (.advance n) .nothing (c.advance n) := by
  cases n with
  | ofNat k =>
    have hforward : c.advance (.ofNat k) = c.moveTo (c.pos + k) := h.forward_eq k
    rw [hforward]
    exact .advance (by simp)
  | negSucc k =>
    exact .advance (by omega)

/-- A sound cursor moves as the text says, whatever it is asked for. -/
theorem Sound.perform_moves (h : c.Sound) (hadmits : operation.admits c.pos = true) :
    c.Moves operation (c.perform operation).1 (c.perform operation).2 := by
  cases operation with
  | atEnd =>
    have hend : c.atEnd = decide (c.text.length ≤ c.pos) := h.atEnd_head.symm
    simp only [perform, hend]
    exact .atEnd
  | advance n => exact h.advance_moves (of_decide_eq_true hadmits)
  | skipBlanks =>
    simp only [perform]
    rw [h.skipBlanks_eq]
    exact .skipBlanks h.blanks
  | consumeIf expected => exact h.consumeIf_moves expected
  | nextOperator operators => exact h.nextOperator_moves operators
  | startsNumber =>
    simp only [perform, startsNumber, h.current_eq]
    exact .startsNumber
  | startsOperand =>
    change c.Moves .startsOperand (.truth (c.skipBlanks.current.any isOperandStart)) c.skipBlanks
    rw [h.skipBlanks.current_eq, h.skipBlanks_eq]
    exact .startsOperand h.blanks
  | scanNumber => exact h.scanNumber_moves
  | scanIdentifier => exact h.scanIdentifier_moves
  | current =>
    simp only [perform, h.current_eq]
    exact .current

/-- A head performs what a cursor does. -/
theorem Sound.head_perform (h : c.Sound) (operation : Operation) :
    c.head.perform operation = onHead (c.perform operation) := by
  cases operation with
  | atEnd => exact congrArg (fun found => (Finding.truth found, c.head)) h.atEnd_head
  | advance n => exact congrArg (Prod.mk Finding.nothing) (h.head_advance n).symm
  | skipBlanks => exact congrArg (Prod.mk Finding.nothing) h.head_skipBlanks
  | consumeIf expected => exact congrArg (Prod.map Finding.truth id) (h.head_consumeIf expected)
  | nextOperator operators =>
    exact congrArg (Prod.map Finding.character id) (h.head_nextOperator operators)
  | startsNumber => exact congrArg (fun found => (Finding.truth found, c.head)) h.head_startsNumber
  | startsOperand => exact congrArg (Prod.map Finding.truth id) h.head_startsOperand
  | scanNumber => exact congrArg (Prod.map Finding.number id) h.head_scanNumber
  | scanIdentifier => exact congrArg (Prod.map Finding.name id) h.head_scanIdentifier
  | current => exact congrArg (fun found => (Finding.character found, c.head)) h.head_current

end Cursor

/-- The head of a text holds the character at its position, NUL at the end and behind it. -/
structure Head.Consistent (text : List Char) (h : Head) : Prop where
  text_eq : h.text = text
  inside : ∀ ch ∈ text[h.pos]?, h.ch = ch
  nul_iff : h.ch = '\x00' ↔ text.length ≤ h.pos ∨ text[h.pos]? = some '\x00'

/-- What is read is what stands there. -/
theorem Head.consistent_seek (h : Head) (pos : Nat) : (h.seek pos).Consistent h.text := by
  have hch : (h.seek pos).ch = h.text[pos]?.getD '\x00' := List.getD_eq_getElem?_getD
  refine ⟨rfl, fun ch hmem => ?_, ?_⟩
  · have hat : h.text[pos]? = some ch := hmem
    rw [hch, hat]
    rfl
  · change (h.seek pos).ch = '\x00' ↔ h.text.length ≤ pos ∨ h.text[pos]? = some '\x00'
    rw [hch]
    cases hat : h.text[pos]? with
    | none => simpa using List.getElem?_eq_none_iff.mp hat
    | some ch =>
      have hinside : ¬h.text.length ≤ pos :=
        Nat.not_le.mpr (List.getElem?_eq_some_iff.mp hat).1
      simp [hinside]

namespace Cursor

variable {c : Cursor}

theorem Sound.consistent (h : c.Sound) : c.head.Consistent c.text :=
  h.seek_head ▸ c.head.consistent_seek c.pos

/-- A run of a sound cursor is made of moves, and a head makes the same run. -/
theorem Sound.motions_moves (h : c.Sound) (operations : List Operation)
    (hadmits : ∀ m ∈ motions perform operations c, m.operation.admits m.start.pos = true) :
    motions Head.perform operations c.head = (motions perform operations c).map (.map head) ∧
      ∀ m ∈ motions perform operations c,
        m.start.Moves m.operation m.finding m.finish ∧ m.finish.Sound ∧ m.finish.text = c.text := by
  induction operations generalizing c with
  | nil => exact ⟨rfl, by simp [motions]⟩
  | cons operation more ih =>
    obtain ⟨hfirst, hmore⟩ := List.forall_mem_cons.mp hadmits
    have hmoves := h.perform_moves hfirst
    have hsound := hmoves.sound h
    obtain ⟨hheads, hmotions⟩ := ih hsound hmore
    refine ⟨?_, List.forall_mem_cons.mpr ⟨⟨hmoves, hsound, hmoves.text_eq⟩, fun m hm => ?_⟩⟩
    · simp only [motions, h.head_perform, onHead, hheads, List.map_cons]
      rfl
    · obtain ⟨hm, hfinish, htext⟩ := hmotions m hm
      exact ⟨hm, hfinish, htext.trans hmoves.text_eq⟩

/-- In every run on a text that never moves in front of its start, each operation moves the cursor
as the text from there on says, and leaves it in step with the text. A head that keeps but the
character under it makes the same run, and after every operation that character is the one at its
position. -/
theorem motions_consistent (text : List Char) (operations : List Operation)
    (h : ∀ m ∈ motions perform operations (ofText text), m.operation.admits m.start.pos = true) :
    (∀ m ∈ motions perform operations (ofText text),
      m.start.Moves m.operation m.finding m.finish ∧ m.finish.Sound) ∧
    motions Head.perform operations (.ofText text) =
      (motions perform operations (ofText text)).map (.map head) ∧
    ∀ m ∈ motions Head.perform operations (.ofText text), m.finish.Consistent text := by
  obtain ⟨hheads, hmotions⟩ := (sound_ofText text).motions_moves operations h
  refine ⟨fun m hm => ⟨(hmotions m hm).1, (hmotions m hm).2.1⟩, hheads, fun m hm => ?_⟩
  rw [← head_ofText, hheads] at hm
  obtain ⟨run, hrun, rfl⟩ := List.mem_map.mp hm
  obtain ⟨-, hsound, htext⟩ := hmotions run hrun
  have hconsistent := hsound.consistent
  rwa [htext] at hconsistent

/-- A run over a NUL of the text, back in front of a blank, past the end, and over what is no number
in both places. -/
theorem motions_consistent_nul :
    let text := ['a', ' ', '\x00', 'e', '5']
    let operations : List Operation := [.scanIdentifier, .consumeIf ['('], .nextOperator ['+'],
      .consumeIf ['\x00'], .scanNumber, .advance 3, .scanNumber, .advance (-6), .current]
    (∀ m ∈ motions perform operations (ofText text), m.operation.admits m.start.pos = true) ∧
    (∀ m ∈ motions perform operations (ofText text),
      m.start.Moves m.operation m.finding m.finish ∧ m.finish.Sound) ∧
    (motions Head.perform operations (.ofText text)).map (fun m => (m.finish.pos, m.finish.ch)) =
      [(1, ' '), (1, ' '), (2, '\x00'), (3, 'e'), (5, '\x00'), (8, '\x00'), (8, '\x00'),
        (2, '\x00'), (2, '\x00')] ∧
    ∀ m ∈ motions Head.perform operations (.ofText text), m.finish.Consistent text := by
  intro text operations
  have hadmits : ∀ m ∈ motions perform operations (ofText text),
      m.operation.admits m.start.pos = true := by decide +kernel
  obtain ⟨hmoves, hheads, hconsistent⟩ := motions_consistent text operations hadmits
  refine ⟨hadmits, hmoves, ?_, hconsistent⟩
  rw [hheads]
  decide +kernel

end Cursor

end Reckon
