import Reckon.Proofs.Grammar.Token

/-!
# Moving on in a text

No operation of the evaluator moves the cursor backwards or past the end of the text, and none but
the one that scans a name moves it over a name: between two places it reads blanks, marks and
numbers.
-/
namespace Reckon
open Grammar Number
open Text (isBlank)

namespace Cursor

/-- The cursor stands on a character of its text, or right behind the last one. -/
structure InText (c : Cursor) : Prop where
  sound : c.Sound
  pos_le : c.pos ≤ c.text.length

/-- A place in the same text that is not before this one. -/
structure Ahead (c d : Cursor) : Prop where
  text_eq : d.text = c.text
  pos_le : c.pos ≤ d.pos
  inText : d.InText

/-- The operation moves on in the text. -/
def Advances {α : Type} (operation : Cursor → α × Cursor) : Prop :=
  ∀ c : Cursor, c.InText → c.Ahead (operation c).2

variable {c d f : Cursor}

theorem inText_ofText (text : List Char) : (ofText text).InText :=
  ⟨sound_ofText text, Nat.zero_le _⟩

theorem InText.length_rest (h : c.InText) : c.pos + c.rest.length = c.text.length := by
  have hsound := h.sound
  have hle := h.pos_le
  rw [Sound] at hsound
  rw [hsound, List.length_drop]
  omega

theorem InText.drop_pos (h : c.InText) : c.text.drop c.pos = c.rest := h.sound.symm

theorem Ahead.refl (h : c.InText) : c.Ahead c := ⟨rfl, le_rfl, h⟩

theorem Ahead.trans (h : c.Ahead d) (h' : d.Ahead f) : c.Ahead f :=
  ⟨h'.text_eq.trans h.text_eq, h.pos_le.trans h'.pos_le, h'.inText⟩

theorem InText.suffix (h : c.InText) : c.rest <:+ c.text := by
  have hsound := h.sound
  rw [Sound] at hsound
  rw [hsound]
  exact List.drop_suffix _ _

/-- What is left further on is left here too. -/
theorem Ahead.suffix (hc : c.InText) (h : c.Ahead d) : d.rest <:+ c.rest := by
  have hsound := h.inText.sound
  have hsound' := hc.sound
  rw [Sound] at hsound hsound'
  rw [hsound, hsound', h.text_eq]
  exact List.drop_suffix_drop_left _ h.pos_le

theorem Ahead.length_le (hc : c.InText) (h : c.Ahead d) : d.rest.length ≤ c.rest.length :=
  (h.suffix hc).length_le

theorem Ahead.length_lt (hc : c.InText) (h : c.Ahead d) (hpos : c.pos < d.pos) :
    d.rest.length < c.rest.length := by
  have hlength := hc.length_rest
  have hlength' := h.inText.length_rest
  rw [h.text_eq] at hlength'
  omega

theorem ahead_forward (h : c.InText) {n : Nat} (hn : n ≤ c.rest.length) :
    c.Ahead (c.forward n) := by
  have hlength := h.length_rest
  refine ⟨rfl, Nat.le_add_right _ _, h.sound.forward n, ?_⟩
  simp only [forward]
  omega

theorem ahead_skipBlanks (h : c.InText) : c.Ahead c.skipBlanks :=
  ahead_forward h (List.takeWhile_prefix _).length_le

/-- Blanks, and the character behind them. -/
theorem ahead_next (h : c.InText) {ch : Char} {tail : List Char}
    (hrest : c.skipBlanks.rest = ch :: tail) : c.Ahead (c.skipBlanks.forward 1) :=
  (ahead_skipBlanks h).trans
    (ahead_forward (ahead_skipBlanks h).inText (by rw [hrest]; exact Nat.succ_pos _))

theorem advances_consumeIf (expected : List Char) : Advances (consumeIf expected) := by
  intro c h
  simp only [consumeIf]
  split
  case h_1 => exact .refl h
  case h_2 ch tail hrest =>
    split
    · exact ahead_next h hrest
    · exact .refl h

theorem advances_accept {α : Type} (meaning : Char → Option α) : Advances (accept meaning) := by
  intro c h
  simp only [accept]
  split
  case h_1 => exact ahead_skipBlanks h
  case h_2 ch tail hrest =>
    split
    · exact ahead_skipBlanks h
    · exact ahead_next h hrest

theorem advances_startsOperand : Advances startsOperand := fun _ h => ahead_skipBlanks h

theorem advances_scanNumber : Advances scanNumber := by
  intro c h
  have hwhole := congrArg List.length (Numeral.text_append_scan c.rest)
  rw [List.length_append] at hwhole
  exact ahead_forward h (by omega)

theorem nameOf_length_le {rest name : List Char} (h : nameOf rest = some name) :
    name.length ≤ rest.length := by
  obtain ⟨more, rfl, -⟩ := longest_of_nameOf h
  simp

theorem advances_scanIdentifier : Advances scanIdentifier := by
  intro c h
  simp only [scanIdentifier]
  split
  case h_1 => exact .refl h
  case h_2 name hname => exact ahead_forward h (nameOf_length_le hname)

/-- A comma directly under the cursor. -/
theorem ahead_comma (h : c.InText) : c.Ahead (if c.ch = ',' then c.forward 1 else c) := by
  split
  case isFalse => exact .refl h
  case isTrue hcomma =>
    refine ahead_forward h (Nat.one_le_iff_ne_zero.mpr fun hnil => ?_)
    rw [List.length_eq_zero_iff] at hnil
    simp [ch, hnil] at hcomma

/-- From one place on to another the text is blanks, marks and numbers. -/
def Nameless (text : List Char) (first last : Nat) : Prop :=
  first ≤ last ∧ ∃ tokens : List Token, (∀ t ∈ tokens, t.name? = none) ∧
    Reads tokens (text.drop first) (text.drop last)

theorem Nameless.trans {text : List Char} {first middle last : Nat}
    (h : Nameless text first middle) (h' : Nameless text middle last) :
    Nameless text first last := by
  obtain ⟨hle, tokens, hnone, hread⟩ := h
  obtain ⟨hle', others, hnone', hread'⟩ := h'
  exact ⟨hle.trans hle', tokens ++ others, List.forall_mem_append.mpr ⟨hnone, hnone'⟩,
    hread.append hread'⟩

theorem nameless_refl (text : List Char) (place : Nat) : Nameless text place place :=
  ⟨le_rfl, [], by simp, .nil _⟩

/-- What is read without a name on the way from one place on. -/
theorem Ahead.nameless {tokens : List Token} (h : c.Ahead d) (hc : c.InText)
    (hnone : ∀ t ∈ tokens, t.name? = none) (hread : Reads tokens c.rest d.rest) :
    Nameless c.text c.pos d.pos := by
  refine ⟨h.pos_le, tokens, hnone, ?_⟩
  rwa [hc.drop_pos, ← h.text_eq, h.inText.drop_pos]

/-- The operation moves on over blanks, marks and numbers. -/
structure Skims {α : Type} (operation : Cursor → α × Cursor) : Prop where
  advances : Advances operation
  nameless (c : Cursor) (h : c.InText) : Nameless c.text c.pos (operation c).2.pos

/-- An operation skims if what it reads is no name. -/
theorem Skims.of_reads {α : Type} {operation : Cursor → α × Cursor} (h : Advances operation)
    (hread : ∀ c : Cursor, c.InText → ∃ tokens : List Token, (∀ t ∈ tokens, t.name? = none) ∧
      Reads tokens c.rest (operation c).2.rest) : Skims operation := by
  refine ⟨h, fun c hc => ?_⟩
  obtain ⟨tokens, hnone, hread⟩ := hread c hc
  exact (h c hc).nameless hc hnone hread

theorem skims_look {α : Type} (look : Cursor → α) : Skims fun c => (look c, c) :=
  .of_reads (fun _ hc => .refl hc) fun c _ => ⟨[], by simp, .nil c.rest⟩

theorem reads_skipBlanks (c : Cursor) : Reads [] c.rest c.skipBlanks.rest := by
  rw [rest_skipBlanks]
  exact reads_dropWhile c.rest

/-- Behind the blanks a mark is read. -/
theorem reads_mark {ch : Char} (hm : isMark ch = true) {tail : List Char}
    (hrest : c.skipBlanks.rest = ch :: tail) :
    Reads [.mark ch hm] c.rest (c.skipBlanks.forward 1).rest := by
  have hnext : Next c.rest (.mark ch hm) tail := ⟨by rw [← rest_skipBlanks, hrest]; rfl, trivial⟩
  have htail : (c.skipBlanks.forward 1).rest = tail := by
    simp only [forward, hrest, List.drop_succ_cons, List.drop_zero]
  rw [htail]
  exact reads_cons.mpr ⟨tail, hnext, .nil tail⟩

theorem skims_skipBlanks : Skims fun c => ((), c.skipBlanks) :=
  .of_reads (fun _ hc => ahead_skipBlanks hc) fun c _ => ⟨[], by simp, reads_skipBlanks c⟩

theorem skims_startsOperand : Skims startsOperand :=
  .of_reads advances_startsOperand fun c _ => ⟨[], by simp, reads_skipBlanks c⟩

theorem skims_consumeIf {mark : Char} (hm : isMark mark = true) : Skims (consumeIf [mark]) := by
  refine .of_reads (advances_consumeIf [mark]) fun c _ => ?_
  simp only [consumeIf]
  split
  case h_1 => exact ⟨[], by simp, .nil c.rest⟩
  case h_2 ch tail hrest =>
    split
    case isTrue hsame =>
      obtain rfl : ch = mark := by simpa using hsame
      exact ⟨[.mark ch hm], by simp [Token.name?], reads_mark hm hrest⟩
    case isFalse => exact ⟨[], by simp, .nil c.rest⟩

theorem skims_accept {α : Type} {meaning : Char → Option α}
    (hm : ∀ ch found, meaning ch = some found → isMark ch = true) : Skims (accept meaning) := by
  refine .of_reads (advances_accept meaning) fun c _ => ?_
  simp only [accept]
  split
  case h_1 => exact ⟨[], by simp, reads_skipBlanks c⟩
  case h_2 ch tail hrest =>
    split
    case h_1 => exact ⟨[], by simp, reads_skipBlanks c⟩
    case h_2 found hfound =>
      exact ⟨[.mark ch (hm ch found hfound)], by simp [Token.name?], reads_mark _ hrest⟩

theorem skims_skipComma : Skims fun c => ((), if c.ch = ',' then c.forward 1 else c) := by
  refine .of_reads (fun _ hc => ahead_comma hc) fun c _ => ?_
  split
  case isFalse => exact ⟨[], by simp, .nil c.rest⟩
  case isTrue hcomma =>
    refine ⟨[.comma], by simp [Token.comma, Token.name?], ?_⟩
    cases hrest : c.rest with
    | nil => simp [ch, hrest] at hcomma
    | cons ch tail =>
      obtain rfl : ch = ',' := by simpa [Cursor.ch, hrest] using hcomma
      have htail : (c.forward 1).rest = tail := by simp [forward, hrest]
      rw [htail]
      exact reads_cons.mpr ⟨tail, ⟨rfl, trivial⟩, .nil tail⟩

end Cursor

end Reckon
