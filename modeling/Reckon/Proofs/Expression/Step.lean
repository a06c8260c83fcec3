import Reckon.Expression.Evaluation
import Reckon.Proofs.Cursor.Advance
import Reckon.Proofs.Grammar.Tree

/-!
# Evaluation, token by token

What every part of the evaluator does on the next token of the text that is left. The cursor
stands in front of a rest of the text, so its position is known from the lengths of the two. All
later proofs use these equations and take no scanner apart.
-/
namespace Reckon
open Grammar Number
open Text (isBlank)

namespace Cursor

/-- The cursor that has `rest` left of a text. -/
def facing (text rest : List Char) : Cursor := ⟨text, text.length - rest.length, rest⟩

theorem ofText_eq (text : List Char) : ofText text = facing text text := by
  simp [ofText, facing]

variable {text rest more : List Char}

theorem InText.eq_facing {c : Cursor} (h : c.InText) : c = .facing c.text c.rest := by
  have hlength := h.length_rest
  have hpos : c.text.length - c.rest.length = c.pos := by omega
  rw [facing, hpos]

theorem inText_facing (h : rest <:+ text) : (facing text rest).InText := by
  obtain ⟨front, rfl⟩ := h
  constructor
  · simp [Sound, facing]
  · simp [facing]

theorem forward_facing {front : List Char} (hr : (front ++ rest).length ≤ text.length) :
    (facing text (front ++ rest)).forward front.length = facing text rest := by
  simp only [List.length_append] at hr
  simp only [facing, forward, List.drop_left, List.length_append, Cursor.mk.injEq, true_and,
    and_true]
  omega

theorem skipBlanks_facing (hr : rest.length ≤ text.length) :
    (facing text rest).skipBlanks = facing text (rest.dropWhile isBlank) := by
  have h : (facing text (rest.takeWhile isBlank ++ rest.dropWhile isBlank)).forward
      (rest.takeWhile isBlank).length = facing text (rest.dropWhile isBlank) :=
    forward_facing (by rwa [List.takeWhile_append_dropWhile])
  rwa [List.takeWhile_append_dropWhile] at h

theorem forward_token {t : Token} (hr : rest.length ≤ text.length) (h : Next rest t more) :
    (facing text (rest.dropWhile isBlank)).forward t.text.length = facing text more := by
  have hle := rest.length_dropWhile_le isBlank
  rw [h.1] at hle ⊢
  exact forward_facing (hle.trans hr)

theorem consumeIf_next {c : Char} {hm : isMark c = true} (hr : rest.length ≤ text.length)
    (h : Next rest (.mark c hm) more) :
    consumeIf [c] (facing text rest) = (true, facing text more) := by
  have hf := forward_token hr h
  have hrest : (facing text (rest.dropWhile isBlank)).rest = c :: more := h.1
  simp only [consumeIf, skipBlanks_facing hr, hrest, if_true]
  rw [← hf]
  rfl

theorem consumeIf_miss {c : Char} (hr : rest.length ≤ text.length)
    (h : ∀ d ∈ (rest.dropWhile isBlank).head?, d ≠ c) :
    consumeIf [c] (facing text rest) = (false, facing text rest) := by
  simp only [consumeIf, skipBlanks_facing hr]
  cases hd : rest.dropWhile isBlank with
  | nil => rfl
  | cons d tail =>
    have hne := h d (by simp [hd])
    simp [facing, hne]

theorem accept_next {α : Type} {meaning : Char → Option α} {c : Char} {hm : isMark c = true}
    {found : α} (hr : rest.length ≤ text.length) (h : Next rest (.mark c hm) more)
    (hc : meaning c = some found) :
    accept meaning (facing text rest) = (some found, facing text more) := by
  have hf := forward_token hr h
  have hrest : (facing text (rest.dropWhile isBlank)).rest = c :: more := h.1
  simp only [accept, skipBlanks_facing hr, hrest, hc]
  rw [← hf]
  rfl

theorem accept_miss {α : Type} {meaning : Char → Option α} (hr : rest.length ≤ text.length)
    (h : ∀ d ∈ (rest.dropWhile isBlank).head?, meaning d = none) :
    accept meaning (facing text rest) = (none, facing text (rest.dropWhile isBlank)) := by
  simp only [accept, skipBlanks_facing hr]
  cases hd : rest.dropWhile isBlank with
  | nil => rfl
  | cons d tail =>
    have hnone := h d (by simp [hd])
    simp [facing, hnone]

theorem startsOperand_facing (hr : rest.length ≤ text.length) :
    startsOperand (facing text rest) =
      ((rest.dropWhile isBlank).head?.any isOperandStart,
        facing text (rest.dropWhile isBlank)) := by
  simp only [startsOperand, skipBlanks_facing hr]
  rfl

/-- A numeral that starts with a digit or a point has a value. -/
theorem hasDigitOrPoint_scan {c : Char} (h : isNumberStart c = true) (tail : List Char) :
    (Numeral.scan (c :: tail)).1.hasDigitOrPoint = true := by
  simp only [isNumberStart, Bool.or_eq_true, beq_iff_eq] at h
  rcases h with hdigit | rfl
  · simp [scan_eq, Numeral.hasDigitOrPoint, hdigit]
  · simp [scan_eq, Numeral.hasDigitOrPoint, Numeral.scanFraction]

/-- Where an operand can start, its first token does. -/
inductive Lead (rest : List Char) : Prop
  | sign (negative : Bool) (more : List Char) (h : Next rest (.sign negative) more)
  | group (more : List Char) (h : Next rest .openParen more)
  | name (n : Name) (more : List Char) (h : Next rest (.name n) more)
  | number (n : Literal) (more : List Char) (h : Next rest (.number n) more)

theorem lead_of_isOperandStart
    (h : (rest.dropWhile isBlank).head?.any isOperandStart = true) : Lead rest := by
  cases hd : rest.dropWhile isBlank with
  | nil => simp [hd] at h
  | cons c tail =>
    simp only [hd, List.head?_cons, Option.any_some, isOperandStart, Bool.or_eq_true,
      beq_iff_eq] at h
    rcases h with (((rfl | rfl) | rfl) | hnumber) | hname
    · exact .sign false tail ⟨hd, trivial⟩
    · exact .sign true tail ⟨hd, trivial⟩
    · exact .group tail ⟨hd, trivial⟩
    · have hl := longest_scan (c :: tail)
      have happ := Numeral.text_append_scan (c :: tail)
      exact .number ⟨_, wellFormed_scan (c :: tail), hasDigitOrPoint_scan hnumber tail⟩ _
        ⟨hd.trans happ.symm, hl⟩
    · have hn : nameOf (c :: tail) = some (c :: tail.takeWhile Text.isWord) := by
        simp [nameOf, hname]
      obtain ⟨more, happ, hl⟩ := longest_of_nameOf hn
      exact .name ⟨_, hl.1⟩ more ⟨hd.trans happ, hl⟩

/-- A mark comes next, or another character does, or nothing. -/
theorem next_or_ne {c : Char} (hm : isMark c = true) (rest : List Char) :
    (∃ more, Next rest (.mark c hm) more) ∨ ∀ d ∈ (rest.dropWhile isBlank).head?, d ≠ c := by
  cases hd : rest.dropWhile isBlank with
  | nil => exact .inr (by simp)
  | cons d tail =>
    by_cases h : d = c
    · subst h
      exact .inl ⟨tail, hd, trivial⟩
    · exact .inr (by simpa using h)

end Cursor

namespace Expression

section Bind
variable {α β : Type} {p : Parse α} {f : α → Parse β} {s s' t : State} {a : α} {b : β} {halt : Halt}

theorem bind_ok (h : p s = .ok a s') : (p >>= f) s = f a s' := by
  simp only [bind, EStateM.bind, h]

theorem bind_error (h : p s = .error halt s') : (p >>= f) s = .error halt s' := by
  simp only [bind, EStateM.bind, h]

theorem bind_congr_left (h : p s = p s') : (p >>= f) s = (p >>= f) s' := by
  simp only [bind, EStateM.bind, h]

/-- Two runs that are the same, and go on in the same way. -/
theorem bind_same {run run' : Parse α} {next next' : α → Parse β} (h : run' s = run s)
    (hnext : ∀ a s', run s = .ok a s' → next' a s' = next a s') :
    (run' >>= next') s = (run >>= next) s := by
  cases hrun : run s with
  | ok a s' =>
    rw [bind_ok hrun, bind_ok (h.trans hrun)]
    exact hnext a s' hrun
  | error halt s' => rw [bind_error hrun, bind_error (h.trans hrun)]

theorem bind_eq_ok :
    (p >>= f) s = .ok b t ↔ ∃ a s', p s = .ok a s' ∧ f a s' = .ok b t := by
  cases h : p s with
  | ok a s' =>
    rw [bind_ok h]
    refine ⟨fun hf => ⟨a, s', rfl, hf⟩, ?_⟩
    rintro ⟨a, s', hok, hf⟩
    cases hok
    exact hf
  | error halt s' => simp [bind_error h]

theorem bind_eq_error :
    (p >>= f) s = .error halt t ↔
      p s = .error halt t ∨ ∃ a s', p s = .ok a s' ∧ f a s' = .error halt t := by
  cases h : p s with
  | ok a s' =>
    rw [bind_ok h]
    refine ⟨fun hf => .inr ⟨a, s', rfl, hf⟩, ?_⟩
    rintro (herror | ⟨a, s', hok, hf⟩)
    · cases herror
    · cases hok
      exact hf
  | error other s' => simp [bind_error h]

end Bind

/-- The evaluation has `rest` left of the text. -/
def State.facing (text rest : List Char) (e : Environment) : State := ⟨.facing text rest, e⟩

variable {text rest more : List Char} {e : Environment} {evaluate : Evaluator}
  {inner : Parse Float} {rounds : Nat}

theorem State.eq_facing {s : State} (h : s.cursor = .facing text rest) :
    s = .facing text rest s.environment :=
  congrArg (State.mk · s.environment) h

theorem onCursor_facing {α : Type} {operation : Cursor → α × Cursor} {a : α}
    (h : operation (.facing text rest) = (a, .facing text more)) :
    (onCursor operation : Parse α) (.facing text rest e) = .ok a (.facing text more e) := by
  change Parse.onCursor operation (.facing text rest e) = _
  simp [Parse.onCursor, State.facing, h]

theorem move_facing {operation : Cursor → Cursor}
    (h : operation (.facing text rest) = .facing text more) :
    (move operation : Parse Unit) (.facing text rest e) = .ok () (.facing text more e) :=
  onCursor_facing (by rw [h])

theorem scanName_facing {found : Option String}
    (h : Cursor.scanIdentifier (.facing text rest) = (found, .facing text more)) :
    (scanName : Parse (Option String)) (.facing text rest e) = .ok found (.facing text more e) :=
  onCursor_facing h

theorem move_skipBlanks (hr : rest.length ≤ text.length) :
    (move Cursor.skipBlanks : Parse Unit) (.facing text rest e) =
      .ok () (.facing text (rest.dropWhile isBlank) e) :=
  move_facing (Cursor.skipBlanks_facing hr)

theorem position_facing :
    (position : Parse Nat) (.facing text rest e) =
      .ok (text.length - rest.length) (.facing text rest e) :=
  rfl

theorem literal_of_scanNumber {s s' : State} {x : Float}
    (h : (onCursor Cursor.scanNumber : Parse _) s = .ok (.ok x) s') :
    (literal : Parse Float) s = .ok x s' := by
  change Parse.literal s = _
  rw [Parse.literal]
  exact bind_ok h

theorem failAt_facing {α : Type} {rejection : Option Char → Nat → Rejection} :
    (failAt rejection : Parse α) (.facing text rest e) =
      .error (.failed (.fault (rejection rest.head? (text.length - rest.length))))
        (.facing text rest e) :=
  rfl

theorem factor_succ (bound : Nat) :
    factor evaluate (bound + 1) = factorOf evaluate (factor evaluate bound) bound := rfl

theorem factorOf_sign {negative : Bool} (hr : rest.length ≤ text.length)
    (h : Next rest (.sign negative) more) :
    factorOf evaluate inner rounds (.facing text rest e) =
      (if negative then (do let value ← inner; return -value) else inner)
        (.facing text more e) := by
  cases negative with
  | false => exact bind_ok (onCursor_facing (Cursor.consumeIf_next hr h))
  | true =>
    have hplus := Cursor.consumeIf_miss (c := '+') hr (by simp [h.1, Token.sign, Token.text])
    rw [factorOf, bind_ok (onCursor_facing hplus)]
    exact bind_ok (onCursor_facing (Cursor.consumeIf_next hr h))

theorem factorOf_group (hr : rest.length ≤ text.length) (h : Next rest .openParen more) :
    factorOf evaluate inner rounds (.facing text rest e) =
      (do let value ← expressionOf inner rounds; close; return value)
        (.facing text more e) := by
  have hplus := Cursor.consumeIf_miss (c := '+') hr (by simp [h.1, Token.openParen, Token.text])
  have hminus := Cursor.consumeIf_miss (c := '-') hr (by simp [h.1, Token.openParen, Token.text])
  rw [factorOf, bind_ok (onCursor_facing hplus)]
  simp only [Bool.false_eq_true, if_false]
  rw [bind_ok (onCursor_facing hminus)]
  exact bind_ok (onCursor_facing (Cursor.consumeIf_next hr h))

/-- What starts with no sign and no parenthesis is an operand. -/
theorem factorOf_eq_operand (hr : rest.length ≤ text.length)
    (h : ∀ c ∈ (rest.dropWhile isBlank).head?, c ≠ '+' ∧ c ≠ '-' ∧ c ≠ '(') :
    factorOf evaluate inner rounds (.facing text rest e) =
      operand evaluate (argumentsOf inner rounds) (.facing text rest e) := by
  have hplus := Cursor.consumeIf_miss hr fun c hc => (h c hc).1
  have hminus := Cursor.consumeIf_miss hr fun c hc => (h c hc).2.1
  have hopen := Cursor.consumeIf_miss hr fun c hc => (h c hc).2.2
  rw [factorOf, bind_ok (onCursor_facing hplus)]
  simp only [Bool.false_eq_true, if_false]
  rw [bind_ok (onCursor_facing hminus)]
  simp only [Bool.false_eq_true, if_false]
  rw [bind_ok (onCursor_facing hopen)]
  rfl

theorem factorOf_name {n : Name} (hr : rest.length ≤ text.length) (h : Next rest (.name n) more) :
    factorOf evaluate inner rounds (.facing text rest e) =
      resolve evaluate (argumentsOf inner rounds) n.string
        (text.length - (n.text ++ more).length) (.facing text more e) := by
  have hd : rest.dropWhile isBlank = n.text ++ more := h.1
  obtain ⟨c, tail, hc, hstart⟩ := n.exists_cons
  have hword := Text.isWord_of_isNameStart hstart
  rw [factorOf_eq_operand hr]
  · have hle := rest.length_dropWhile_le isBlank
    have hscan : Cursor.scanIdentifier (.facing text (n.text ++ more)) =
        (some n.string, .facing text more) := by
      have hname := nameOf_append n.isName (stop_of_longest_isName h.2)
      have hforward := Cursor.forward_facing (hd ▸ hle.trans hr)
      simp only [Cursor.scanIdentifier]
      rw [show (Cursor.facing text (n.text ++ more)).rest = n.text ++ more from rfl, hname]
      simp [hforward, Name.string]
    rw [operand, bind_ok (move_skipBlanks hr), hd, bind_ok position_facing,
      bind_ok (scanName_facing hscan)]
  · intro d hd'
    rw [hd, hc] at hd'
    obtain rfl : c = d := by simpa using hd'
    refine ⟨?_, ?_, ?_⟩ <;> rintro rfl <;> exact absurd hword (by decide)

theorem nameOf_eq_none (h : ∀ c ∈ rest.head?, Text.isNameStart c = false) :
    Cursor.nameOf rest = none := by
  cases rest with
  | nil => rfl
  | cons c tail => simp [Cursor.nameOf, h c rfl]

theorem isNameStart_eq_false_of_isNumberStart {c : Char} (h : Cursor.isNumberStart c = true) :
    Text.isNameStart c = false := by
  simp only [Cursor.isNumberStart, Bool.or_eq_true, beq_iff_eq] at h
  rcases h with h | rfl
  · exact Text.isNameStart_eq_false_of_isDigit h
  · decide

/-- Without a name the operand is a literal, or there is none. -/
theorem operand_eq_literalOrFail {arguments : Parse (List Float)} (hr : rest.length ≤ text.length)
    (h : ∀ c ∈ (rest.dropWhile isBlank).head?, Text.isNameStart c = false) :
    operand evaluate arguments (.facing text rest e) =
      (literalOrFail : Parse Float) (.facing text (rest.dropWhile isBlank) e) := by
  have hscan : Cursor.scanIdentifier (.facing text (rest.dropWhile isBlank)) =
      (none, .facing text (rest.dropWhile isBlank)) := by
    simp only [Cursor.scanIdentifier]
    rw [show (Cursor.facing text (rest.dropWhile isBlank)).rest = rest.dropWhile isBlank from rfl,
      nameOf_eq_none h]
  rw [operand, bind_ok (move_skipBlanks hr), bind_ok position_facing,
    bind_ok (scanName_facing hscan)]

theorem factorOf_number {n : Literal} (hr : rest.length ≤ text.length)
    (h : Next rest (.number n) more) :
    factorOf evaluate inner rounds (.facing text rest e) =
      .ok n.numeral.toFloat (.facing text more e) := by
  have hd : rest.dropWhile isBlank = n.numeral.text ++ more := h.1
  obtain ⟨c, tail, hc, hstart⟩ := n.exists_cons
  have hhead : ∀ d ∈ (rest.dropWhile isBlank).head?, Cursor.isNumberStart d = true := by
    rw [hd, hc]
    simpa using hstart
  rw [factorOf_eq_operand hr, operand_eq_literalOrFail hr, hd]
  · have hle := rest.length_dropWhile_le isBlank
    have hforward := Cursor.forward_facing (hd ▸ hle.trans hr)
    have hstarts : (Cursor.facing text (n.numeral.text ++ more)).startsNumber = true := by
      simp [Cursor.startsNumber, Cursor.current, Cursor.facing, hc, hstart]
    have hscan : Cursor.scanNumber (.facing text (n.numeral.text ++ more)) =
        (.ok n.numeral.toFloat, .facing text more) := by
      have hlong := scan_of_longest n.wellFormed h.2
      simp only [Cursor.scanNumber]
      rw [show (Cursor.facing text (n.numeral.text ++ more)).rest = n.numeral.text ++ more from rfl,
        hlong]
      simp [n.marked, hforward]
    rw [literalOrFail, bind_ok (onCursor_facing (by rw [hstarts])), if_pos rfl]
    exact literal_of_scanNumber (onCursor_facing hscan)
  · exact fun d hd => isNameStart_eq_false_of_isNumberStart (hhead d hd)
  · intro d hd
    have hstart := hhead d hd
    refine ⟨?_, ?_, ?_⟩ <;> rintro rfl <;> exact absurd hstart (by decide)

/-- Where no operand can start, the factor fails behind the blanks. -/
theorem factorOf_fail (hr : rest.length ≤ text.length)
    (h : (rest.dropWhile isBlank).head?.any Cursor.isOperandStart = false) :
    factorOf evaluate inner rounds (.facing text rest e) =
      .error (.failed (.fault (.unexpected (rest.dropWhile isBlank).head?
        (text.length - (rest.dropWhile isBlank).length))))
        (.facing text (rest.dropWhile isBlank) e) := by
  have hall : ∀ c ∈ (rest.dropWhile isBlank).head?, Cursor.isOperandStart c = false := by
    intro c hc
    simpa [Option.mem_def.mp hc] using h
  simp only [Cursor.isOperandStart, Bool.or_eq_false_iff, beq_eq_false_iff_ne] at hall
  rw [factorOf_eq_operand hr, operand_eq_literalOrFail hr]
  · have hstarts : (Cursor.facing text (rest.dropWhile isBlank)).startsNumber = false := by
      cases hd : (rest.dropWhile isBlank).head? with
      | none => simp [Cursor.startsNumber, Cursor.current, Cursor.facing, hd]
      | some c => simp [Cursor.startsNumber, Cursor.current, Cursor.facing, hd, (hall c hd).1.2]
    rw [literalOrFail, bind_ok (onCursor_facing (by rw [hstarts]))]
    rfl
  · exact fun c hc => (hall c hc).2
  · exact fun c hc => ⟨(hall c hc).1.1.1.1, (hall c hc).1.1.1.2, (hall c hc).1.1.2⟩

section Operand
variable {arguments : Parse (List Float)} {c : Cursor} {name : List Char}

/-- An operand that starts with a name. -/
theorem operand_name (h : Cursor.nameOf c.skipBlanks.rest = some name) :
    operand evaluate arguments ⟨c, e⟩ =
      resolve evaluate arguments (String.ofList name) c.skipBlanks.pos
        ⟨c.skipBlanks.forward name.length, e⟩ := by
  have hskip : (move Cursor.skipBlanks : Parse Unit) ⟨c, e⟩ = .ok () ⟨c.skipBlanks, e⟩ := rfl
  have hplace : (position : Parse Nat) ⟨c.skipBlanks, e⟩ = .ok c.skipBlanks.pos ⟨c.skipBlanks, e⟩ :=
    rfl
  have hscan : (scanName : Parse (Option String)) ⟨c.skipBlanks, e⟩ =
      .ok (some (String.ofList name)) ⟨c.skipBlanks.forward name.length, e⟩ := by
    change Parse.onCursor Cursor.scanIdentifier _ = _
    simp only [Parse.onCursor, Cursor.scanIdentifier, h]
  rw [operand, bind_ok hskip, bind_ok hplace, bind_ok hscan]

/-- An operand that starts with no name. -/
theorem operand_unnamed (h : Cursor.nameOf c.skipBlanks.rest = none) :
    operand evaluate arguments ⟨c, e⟩ = (literalOrFail : Parse Float) ⟨c.skipBlanks, e⟩ := by
  have hskip : (move Cursor.skipBlanks : Parse Unit) ⟨c, e⟩ = .ok () ⟨c.skipBlanks, e⟩ := rfl
  have hplace : (position : Parse Nat) ⟨c.skipBlanks, e⟩ = .ok c.skipBlanks.pos ⟨c.skipBlanks, e⟩ :=
    rfl
  have hscan : (scanName : Parse (Option String)) ⟨c.skipBlanks, e⟩ = .ok none ⟨c.skipBlanks, e⟩ := by
    change Parse.onCursor Cursor.scanIdentifier _ = _
    simp only [Parse.onCursor, Cursor.scanIdentifier, h]
  rw [operand, bind_ok hskip, bind_ok hplace, bind_ok hscan]

theorem literalOrFail_literal (h : c.startsNumber = true) :
    (literalOrFail : Parse Float) ⟨c, e⟩ = (literal : Parse Float) ⟨c, e⟩ := by
  have hstarts : (onCursor fun c => (c.startsNumber, c) : Parse Bool) ⟨c, e⟩ = .ok true ⟨c, e⟩ :=
    congrArg (EStateM.Result.ok · (⟨c, e⟩ : State)) h
  exact bind_ok hstarts

theorem literalOrFail_fail (h : c.startsNumber = false) :
    (literalOrFail : Parse Float) ⟨c, e⟩ = (failAt .unexpected : Parse Float) ⟨c, e⟩ := by
  have hstarts : (onCursor fun c => (c.startsNumber, c) : Parse Bool) ⟨c, e⟩ = .ok false ⟨c, e⟩ :=
    congrArg (EStateM.Result.ok · (⟨c, e⟩ : State)) h
  exact bind_ok hstarts

/-- Where a digit or a point stands, there is a numeral with a value. -/
theorem scanNumber_eq (h : c.startsNumber = true) :
    c.scanNumber = (.ok (Numeral.scan c.rest).1.toFloat,
      c.forward (Numeral.scan c.rest).1.text.length) := by
  have hmarked : (Numeral.scan c.rest).1.hasDigitOrPoint = true := by
    cases hrest : c.rest with
    | nil => simp [Cursor.startsNumber, Cursor.current, hrest] at h
    | cons ch tail =>
      refine Cursor.hasDigitOrPoint_scan ?_ tail
      simpa [Cursor.startsNumber, Cursor.current, hrest] using h
  simp only [Cursor.scanNumber, hmarked, if_true]

theorem literal_eq (h : c.startsNumber = true) :
    (literal : Parse Float) ⟨c, e⟩ = .ok (Numeral.scan c.rest).1.toFloat
      ⟨c.forward (Numeral.scan c.rest).1.text.length, e⟩ := by
  have hscan : (onCursor Cursor.scanNumber : Parse _) ⟨c, e⟩ =
      .ok (.ok (Numeral.scan c.rest).1.toFloat)
        ⟨c.forward (Numeral.scan c.rest).1.text.length, e⟩ := by
    change Parse.onCursor Cursor.scanNumber _ = _
    simp only [Parse.onCursor, scanNumber_eq h]
  exact literal_of_scanNumber hscan

end Operand

section Chain
variable {operator? : Char → Option (Float → Float → Float)} {value : Float}

/-- No operator of a table follows. -/
def Ends (operator? : Char → Option (Float → Float → Float)) (rest : List Char) : Prop :=
  ∀ c ∈ (rest.dropWhile isBlank).head?, operator? c = none

/-- The chain goes on with an operator or ends. -/
theorem operator_or_ends (l : Level) (rest : List Char) :
    (∃ (operator : Operator l) (more : List Char), Next rest operator.token more) ∨
      Ends l.operator? rest := by
  by_cases h : Ends l.operator? rest
  · exact .inr h
  · simp only [Ends, not_forall] at h
    obtain ⟨c, hc, hne⟩ := h
    obtain ⟨apply, happly⟩ := Option.ne_none_iff_exists'.mp hne
    obtain ⟨operator, rfl, -⟩ := Operator.exists_of_operator? happly
    obtain ⟨more, hmore⟩ | hmiss := Cursor.next_or_ne operator.isMark_char rest
    · exact .inl ⟨operator, more, hmore⟩
    · exact absurd rfl (hmiss _ hc)

/-- An operand, and the chain behind it on what `start` makes of its value. -/
def linked (operator? : Char → Option (Float → Float → Float)) (operand : Parse Float)
    (rounds : Nat) (start : Float → Float) : Parse Float := do
  let x ← operand
  chain operator? operand rounds (start x)

theorem termOf_eq : termOf inner rounds = linked multiplicative? inner rounds id := rfl

theorem expressionOf_eq :
    expressionOf inner rounds = linked additive? (termOf inner rounds) rounds id := rfl

theorem chain_next {c : Char} {hm : isMark c = true} {apply : Float → Float → Float}
    (hr : rest.length ≤ text.length) (h : Next rest (.mark c hm) more)
    (hc : operator? c = some apply) :
    chain operator? inner (rounds + 1) value (.facing text rest e) =
      linked operator? inner rounds (apply value) (.facing text more e) := by
  rw [chain, bind_ok (onCursor_facing (Cursor.accept_next hr h hc))]
  rfl

theorem chain_end (hr : rest.length ≤ text.length) (h : Ends operator? rest) :
    chain operator? inner (rounds + 1) value (.facing text rest e) =
      .ok value (.facing text (rest.dropWhile isBlank) e) := by
  rw [chain, bind_ok (onCursor_facing (Cursor.accept_miss hr h))]
  rfl

end Chain

theorem close_next (hr : rest.length ≤ text.length) (h : Next rest .closeParen more) :
    (close : Parse Unit) (.facing text rest e) = .ok () (.facing text more e) := by
  rw [close, bind_ok (onCursor_facing (Cursor.consumeIf_next hr h))]
  rfl

theorem close_fail (hr : rest.length ≤ text.length)
    (h : ∀ c ∈ (rest.dropWhile isBlank).head?, c ≠ ')') :
    (close : Parse Unit) (.facing text rest e) =
      .error (.failed (.fault (.unbalanced (rest.dropWhile isBlank).head?
        (text.length - (rest.dropWhile isBlank).length))))
        (.facing text (rest.dropWhile isBlank) e) := by
  rw [close, bind_ok (onCursor_facing (Cursor.consumeIf_miss hr h))]
  simp only [Bool.false_eq_true, if_false]
  rw [bind_ok (move_skipBlanks hr)]
  rfl

theorem skipComma_eq (s : State) :
    (skipComma : Parse Unit) s =
      .ok () ⟨if s.cursor.ch = ',' then s.cursor.forward 1 else s.cursor, s.environment⟩ :=
  rfl

theorem skipComma_next (hr : (',' :: rest).length ≤ text.length) :
    (skipComma : Parse Unit) (.facing text (',' :: rest) e) = .ok () (.facing text rest e) := by
  have hf : (Cursor.facing text ([','] ++ rest)).forward [','].length = Cursor.facing text rest :=
    Cursor.forward_facing hr
  exact move_facing hf

theorem skipComma_miss (h : rest.head? ≠ some ',') :
    (skipComma : Parse Unit) (.facing text rest e) = .ok () (.facing text rest e) := by
  have hch : (Cursor.facing text rest).ch ≠ ',' := by
    cases rest with
    | nil => exact (by decide : '\x00' ≠ ',')
    | cons c tail => simpa [Cursor.ch, Cursor.facing] using h
  exact move_facing (if_neg hch)

theorem skipComma_length_le {after : Environment}
    (h : (skipComma : Parse Unit) (.facing text rest e) = .ok () (.facing text more after)) :
    more.length ≤ rest.length := by
  have hmove : (if (Cursor.facing text rest).ch = ',' then (Cursor.facing text rest).forward 1
      else .facing text rest) = .facing text more := by
    have hstate := (EStateM.Result.ok.inj h).2
    exact congrArg State.cursor hstate
  have hrest := congrArg (fun c => c.rest.length) hmove
  split at hrest
  · simp only [Cursor.facing, Cursor.forward, List.length_drop] at hrest
    omega
  · exact hrest.ge

variable {run : Parse Float}

theorem argumentList_next (hr : rest.length ≤ text.length)
    (h : (rest.dropWhile isBlank).head?.any Cursor.isOperandStart = true) :
    argumentList run (rounds + 1) (.facing text rest e) =
      (do
        let value ← run
        skipComma
        let more ← argumentList run rounds
        return value :: more) (.facing text (rest.dropWhile isBlank) e) := by
  have hs := Cursor.startsOperand_facing hr
  rw [h] at hs
  rw [argumentList, bind_ok (onCursor_facing hs)]
  rfl

theorem argumentList_end (hr : rest.length ≤ text.length)
    (h : (rest.dropWhile isBlank).head?.any Cursor.isOperandStart = false) :
    argumentList run (rounds + 1) (.facing text rest e) =
      (do close; return [] : Parse (List Float)) (.facing text (rest.dropWhile isBlank) e) := by
  have hs := Cursor.startsOperand_facing hr
  rw [h] at hs
  rw [argumentList, bind_ok (onCursor_facing hs)]
  rfl

/-- The list ends at its parenthesis. -/
theorem argumentList_close (hr : rest.length ≤ text.length) (h : Next rest .closeParen more) :
    argumentList run (rounds + 1) (.facing text rest e) = .ok [] (.facing text more e) := by
  have hdrop := (rest.length_dropWhile_le isBlank).trans hr
  rw [argumentList_end hr (h.any_isOperandStart.trans (by decide)),
    bind_ok (close_next hdrop (next_dropWhile.mpr h))]
  rfl

theorem argumentsOf_bare (hr : rest.length ≤ text.length)
    (h : ∀ c ∈ (rest.dropWhile isBlank).head?, c ≠ '(') :
    argumentsOf inner rounds (.facing text rest e) =
      (do let value ← inner; return [value]) (.facing text rest e) := by
  rw [argumentsOf, bind_ok (onCursor_facing (Cursor.consumeIf_miss hr h))]
  rfl

/-- An empty list needs no case of its own: the loop over the arguments ends at once. -/
theorem argumentsOf_list (hr : rest.length ≤ text.length) (h : Next rest .openParen more) :
    argumentsOf inner (rounds + 1) (.facing text rest e) =
      argumentList (expressionOf inner (rounds + 1)) (rounds + 1) (.facing text more e) := by
  have hmore : more.length ≤ text.length := h.length_lt.le.trans hr
  rw [argumentsOf, bind_ok (onCursor_facing (Cursor.consumeIf_next hr h)), if_pos rfl]
  by_cases hclose : (more.dropWhile isBlank).head? = some ')'
  · obtain ⟨tail, htail⟩ : ∃ tail, more.dropWhile isBlank = ')' :: tail := by
      cases hd : more.dropWhile isBlank with
      | nil => simp [hd] at hclose
      | cons c tail =>
        obtain rfl : c = ')' := by simpa [hd] using hclose
        exact ⟨tail, rfl⟩
    have hnext : Next more .closeParen tail := ⟨htail, trivial⟩
    rw [bind_ok (onCursor_facing (Cursor.consumeIf_next hmore hnext)), argumentList_close hmore hnext]
    rfl
  · have hmiss := Cursor.consumeIf_miss hmore fun c hc => by
      rintro rfl
      exact hclose hc
    rw [bind_ok (onCursor_facing hmiss)]
    rfl

section Names
variable {arguments : Parse (List Float)} {name : String} {start : Nat} {s s' : State}

theorem meaningOf_eq :
    (meaningOf name start : Parse Meaning) s = .ok (s.environment.bindings.meaning name) s := rfl

theorem resolve_held {value : Float} (h : held (s.environment.bindings.meaning name) = some value) :
    resolve evaluate arguments name start s = .ok value s := by
  rw [resolve, bind_ok meaningOf_eq]
  generalize s.environment.bindings.meaning name = meaning at h
  match meaning with
  | .variable x => obtain rfl := Option.some.inj h; rfl
  | .constant x => obtain rfl := Option.some.inj h; rfl
  | .custom _ => simp [held] at h
  | .builtin _ => simp [held] at h
  | .unknown => simp [held] at h

theorem resolve_unknown (h : s.environment.bindings.meaning name = .unknown) :
    resolve evaluate arguments name start s =
      .error (.failed (.fault (.unknownName name start))) s := by
  rw [resolve, bind_ok meaningOf_eq, h]
  rfl

/-- A name has a value, or is called, or is unknown. -/
theorem meaning_cases (meaning : Meaning) :
    (∃ value, held meaning = some value) ∨ isFunction meaning = true ∨ meaning = .unknown := by
  match meaning with
  | .variable value => exact .inl ⟨value, rfl⟩
  | .constant value => exact .inl ⟨value, rfl⟩
  | .custom _ => exact .inr (.inl rfl)
  | .builtin _ => exact .inr (.inl rfl)
  | .unknown => exact .inr (.inr rfl)

/-- Calls a function on arguments that have been read. -/
def applied (evaluate : Evaluator) (name : String) (meaning : Meaning) (values : List Float) :
    Parse Float :=
  match meaning with
  | .custom function => do
    requireArity name function.arity values
    callCustom evaluate name function values
  | .builtin function => do
    requireArity name function.arity values
    callBuiltin name function values
  | _ => exhausted

theorem resolve_function (h : isFunction (s.environment.bindings.meaning name) = true) :
    resolve evaluate arguments name start s =
      (do
        let values ← arguments
        applied evaluate name (s.environment.bindings.meaning name) values) s := by
  rw [resolve, bind_ok meaningOf_eq]
  generalize s.environment.bindings.meaning name = meaning at h ⊢
  match meaning with
  | .variable _ => simp [isFunction] at h
  | .constant _ => simp [isFunction] at h
  | .custom _ => rfl
  | .builtin _ => rfl
  | .unknown => simp [isFunction] at h

variable {values : List Float}

theorem requireArity_eq (name : String) (arity : Option Nat) (values : List Float) (s : State) :
    (requireArity name arity values : Parse Unit) s =
      if admits (arity.map Int.ofNat) values.length then .ok () s
      else .error (.failed (.fault (.argumentCount name (arity.map Int.ofNat) values.length))) s := by
  simp only [requireArity, checkCall, checkArity]
  by_cases h : admits (arity.map Int.ofNat) values.length = true
  · simp only [h, if_true]
    rfl
  · simp only [h]
    rfl

theorem applied_of_not_isFunction {meaning : Meaning} (h : isFunction meaning = false) :
    applied evaluate name meaning values s = .error .exhausted s := by
  match meaning with
  | .variable _ => rfl
  | .constant _ => rfl
  | .unknown => rfl
  | .custom _ => simp [isFunction] at h
  | .builtin _ => simp [isFunction] at h

/-- A function that does not take so many arguments is not called. -/
theorem applied_refused {arity : Option Nat} {meaning : Meaning}
    (hm : (∃ callback, meaning = .custom ⟨callback, arity⟩) ∨ ∃ apply, meaning = .builtin ⟨arity, apply⟩)
    (h : admits (arity.map Int.ofNat) values.length = false) :
    applied evaluate name meaning values s =
      .error (.failed (.fault (.argumentCount name (arity.map Int.ofNat) values.length))) s := by
  have hcheck := requireArity_eq name arity values s
  rw [h] at hcheck
  rcases hm with ⟨callback, rfl⟩ | ⟨apply, rfl⟩ <;> exact bind_error hcheck

theorem applied_custom {function : CustomFunction}
    (h : admits (function.arity.map Int.ofNat) values.length = true) :
    applied evaluate name (.custom function) values s =
      lift (function.call evaluate name values s.environment).1
        { s with environment := (function.call evaluate name values s.environment).2 } := by
  have hcheck := requireArity_eq name function.arity values s
  rw [h] at hcheck
  exact bind_ok hcheck

theorem applied_builtin {function : Builtin}
    (h : admits (function.arity.map Int.ofNat) values.length = true) :
    applied evaluate name (.builtin function) values s =
      lift ((function.apply values).mapError .breakdown) s := by
  have hcheck := requireArity_eq name function.arity values s
  rw [h] at hcheck
  exact bind_ok hcheck

/-- A call succeeds with the value that its tree has. -/
theorem applied_eq_ok {meaning : Meaning} {value : Float} :
    applied evaluate name meaning values s = .ok value s' ↔
      called evaluate name meaning values s.environment = some (value, s'.environment) ∧
        s'.cursor = s.cursor := by
  match meaning with
  | .variable _ =>
    rw [applied_of_not_isFunction rfl]
    simp [called]
  | .constant _ =>
    rw [applied_of_not_isFunction rfl]
    simp [called]
  | .unknown =>
    rw [applied_of_not_isFunction rfl]
    simp [called]
  | .custom function =>
    cases h : admits (function.arity.map Int.ofNat) values.length with
    | false =>
      rw [applied_refused (.inl ⟨_, rfl⟩) h]
      simp [called, accepts_iff_admits, h]
    | true =>
      rw [applied_custom h]
      simp only [called, accepts_iff_admits, h, if_true, CustomFunction.call]
      rcases (function.callback values).perform evaluate
        (s.environment.record ⟨name, function, values⟩) with ⟨result, after⟩
      cases result with
      | error failure => simp [lift, Except.mapError]
      | ok x =>
        simp only [lift, Except.mapError, EStateM.Result.ok.injEq, Option.some.injEq, Prod.mk.injEq]
        constructor
        · rintro ⟨rfl, rfl⟩
          exact ⟨⟨rfl, rfl⟩, rfl⟩
        · rintro ⟨⟨rfl, rfl⟩, hc⟩
          rw [← hc]
          exact ⟨rfl, rfl⟩
  | .builtin function =>
    cases h : admits (function.arity.map Int.ofNat) values.length with
    | false =>
      rw [applied_refused (.inr ⟨_, rfl⟩) h]
      simp [called, accepts_iff_admits, h]
    | true =>
      rw [applied_builtin h]
      simp only [called, accepts_iff_admits, h, if_true]
      cases function.apply values with
      | error breakdown => simp [lift, Except.mapError]
      | ok x =>
        simp only [lift, Except.mapError, EStateM.Result.ok.injEq, Option.some.injEq,
          Prod.mk.injEq]
        constructor
        · rintro ⟨rfl, rfl⟩
          exact ⟨⟨rfl, rfl⟩, rfl⟩
        · rintro ⟨⟨rfl, he⟩, hc⟩
          cases s
          cases s'
          exact ⟨rfl, by simp_all⟩

end Names

section Whole
variable {bound : Nat} {value : Float} {between : Environment}

theorem whole_end (h : expression evaluate bound (.facing text rest e) =
    .ok value (.facing text [] between)) :
    whole evaluate bound (.facing text rest e) = .ok value (.facing text [] between) := by
  rw [whole, wholeOf, bind_ok h]
  rfl

/-- What is left behind the expression is a fault. -/
theorem whole_fail {c : Char} (h : expression evaluate bound (.facing text rest e) =
    .ok value (.facing text (c :: more) between)) :
    whole evaluate bound (.facing text rest e) =
      .error (.failed (.fault (.unexpected (some c) (text.length - (c :: more).length))))
        (.facing text (c :: more) between) := by
  rw [whole, wholeOf, bind_ok h]
  rfl

/-- The outcome of an evaluation that ends in this way. -/
def outcomeOf : EStateM.Result Halt State Float → Outcome
  | .ok value s => (.ok value, s.environment)
  | .error halt s => (.error halt.failure, s.environment)

theorem evaluateText_eq :
    evaluateText evaluate text e =
      outcomeOf (whole evaluate (boundFor text) (.facing text text e)) := by
  have hstart : (⟨.ofText text, e⟩ : State) = .facing text text e :=
    congrArg (State.mk · e) (Cursor.ofText_eq text)
  rw [← hstart]
  rfl

end Whole

end Expression

end Reckon
