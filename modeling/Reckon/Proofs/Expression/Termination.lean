import Reckon.Proofs.Expression.Position

/-!
# Evaluations end

Whatever text is left, every part of the evaluator comes to an end. A factor, a term and an
expression consume a character that is no blank, so every round of a loop moves the cursor forward,
and the factors that are nested in each other start further and further on. Any bound larger than
the text that is left is therefore as good as every other one.
-/
namespace Reckon
open Grammar Number
open Text (isBlank)

namespace Cursor

variable {c d : Cursor} {text rest more : List Char}

theorem accept_pos_lt {α : Type} {meaning : Char → Option α} {found : α}
    (h : (accept meaning c).1 = some found) : c.pos < (accept meaning c).2.pos := by
  have hskip : c.pos ≤ c.skipBlanks.pos := Nat.le_add_right _ _
  simp only [accept] at h ⊢
  split at h
  case h_1 => cases h
  case h_2 ch tail hrest =>
    split at h
    · cases h
    · simp only [hrest, forward]
      omega

end Cursor

namespace Expression

variable {α β : Type} {evaluate : Evaluator} {s s' : State} {text rest more : List Char}
  {e : Environment}

/-- Between the two places stands a character that is no blank. -/
def Consumes (s s' : State) : Prop :=
  ∃ consumed, s.cursor.rest = consumed ++ s'.cursor.rest ∧ ∃ c ∈ consumed, isBlank c = false

/-- Wherever the run succeeds, it has consumed a character that is no blank. -/
def Consuming (run : Parse α) : Prop :=
  ∀ (s : State) (a : α) (s' : State), s.cursor.InText → run s = .ok a s' → Consumes s s'

theorem Consumes.length_lt (h : Consumes s s') : s'.cursor.rest.length < s.cursor.rest.length := by
  obtain ⟨consumed, hrest, c, hc, -⟩ := h
  have hpos := List.length_pos_of_mem hc
  rw [hrest, List.length_append]
  omega

theorem Consumes.of_suffix {left : State} (h : Consumes s s')
    (hsuffix : left.cursor.rest <:+ s'.cursor.rest) : Consumes s left := by
  obtain ⟨consumed, hrest, c, hc, hblank⟩ := h
  obtain ⟨more, hmore⟩ := hsuffix
  exact ⟨consumed ++ more, by rw [hrest, ← hmore, List.append_assoc], c,
    List.mem_append_left _ hc, hblank⟩

/-- A token has a character that is no blank. -/
theorem consumes_next {t : Token} (h : Next rest t more) :
    Consumes (.facing text rest e) (.facing text more e) := by
  obtain ⟨c, tail, hc, hblank⟩ := t.exists_cons
  refine ⟨rest.takeWhile isBlank ++ t.text, ?_, c, List.mem_append_right _ (by simp [hc]), hblank⟩
  have hrest := List.takeWhile_append_dropWhile (p := isBlank) (l := rest)
  rw [h.1, ← List.append_assoc] at hrest
  exact hrest.symm

theorem Consuming.bind {run : Parse α} {next : α → Parse β} (h : Consuming run)
    (hsteady : Steady run) (hnext : ∀ a, Steady (next a)) : Consuming (run >>= next) := by
  intro s b final hs hrun
  obtain ⟨a, s', hfirst, hlater⟩ := bind_eq_ok.mp hrun
  have hs' := (hsteady.ahead hs hfirst).inText
  exact (h s a s' hs hfirst).of_suffix (((hnext a).ahead hs' hlater).suffix hs')

section Levels
variable {inner : Parse Float} (hi : Steady inner)
include hi

theorem termOf_consuming (h : Consuming inner) (rounds : Nat) : Consuming (termOf inner rounds) :=
  h.bind hi fun value => chain_steady hi rounds .factor value

theorem expressionOf_consuming (h : Consuming inner) (rounds : Nat) :
    Consuming (expressionOf inner rounds) :=
  (termOf_consuming hi h rounds).bind (termOf_steady hi rounds) fun value =>
    chain_steady (termOf_steady hi rounds) rounds .term value

theorem factorOf_consuming (rounds : Nat) : Consuming (factorOf evaluate inner rounds) := by
  rintro ⟨c, e⟩ value s' hs hrun
  obtain ⟨text, rest, hsuffix, rfl⟩ : ∃ text rest, rest <:+ text ∧ c = .facing text rest :=
    ⟨c.text, c.rest, Cursor.InText.suffix hs, Cursor.InText.eq_facing hs⟩
  have hr := hsuffix.length_le
  change factorOf evaluate inner rounds (.facing text rest e) = _ at hrun
  -- whatever follows the first token of the factor only moves on
  have hstep : ∀ {t : Token} {more : List Char} {r : EStateM.Result Halt State Float},
      Next rest t more → Leads (.facing text more e) r → r = .ok value s' →
        Consumes (.facing text rest e) s' := fun hnext hleads hr =>
    (consumes_next hnext).of_suffix
      ((hleads.ahead_of_ok hr).suffix (Cursor.inText_facing (hnext.suffix.trans hsuffix)))
  have hin : ∀ {t : Token} {more : List Char}, Next rest t more →
      (State.facing text more e).cursor.InText := fun hnext =>
    Cursor.inText_facing (hnext.suffix.trans hsuffix)
  cases hstart : (rest.dropWhile isBlank).head?.any Cursor.isOperandStart with
  | false =>
    rw [factorOf_fail hr hstart] at hrun
    cases hrun
  | true =>
    cases Cursor.lead_of_isOperandStart hstart with
    | sign negative more hsign =>
      rw [factorOf_sign hr hsign] at hrun
      refine hstep hsign ?_ hrun
      cases negative with
      | false => exact hi _ (hin hsign)
      | true => exact hi.bind (fun value => steady_pure (-value)) _ (hin hsign)
    | group more hopen =>
      rw [factorOf_group hr hopen] at hrun
      exact hstep hopen (((expressionOf_steady hi rounds).bind fun value =>
        close_steady.bind fun _ => steady_pure value) _ (hin hopen)) hrun
    | number number more hnumber =>
      rw [factorOf_number hr hnumber] at hrun
      exact hstep hnumber (leads_ok (.refl (hin hnumber)) _) hrun
    | name name more hname =>
      rw [factorOf_name hr hname] at hrun
      refine hstep hname (resolve_leads (argumentsOf_steady hi rounds) (hin hname) ?_ ?_) hrun
      · have hplace := Cursor.inText_facing ((List.dropWhile_suffix isBlank).trans hsuffix)
        rw [hname.1] at hplace
        have hname' : Cursor.nameOf (name.text ++ more) = some name.text :=
          nameOf_append name.isName (stop_of_longest_isName hname.2)
        exact nameAt_of_nameOf hplace.sound hname'
      · have hle := rest.length_dropWhile_le isBlank
        rw [hname.1] at hle
        simp only [Token.text, List.length_append, State.facing, Cursor.facing, Name.string,
          String.length_ofList] at hle ⊢
        omega

end Levels

theorem factor_consuming (evaluate : Evaluator) : ∀ bound, Consuming (factor evaluate bound)
  | 0 => fun _ _ _ _ h => by cases h
  | bound + 1 => factorOf_consuming (factor_steady evaluate bound) bound

/-- One round of a chain: an operator and the operand behind it, if an operator follows. -/
def chainRound (operator? : Char → Option (Float → Float → Float)) (operand : Parse Float)
    (value : Float) : Parse (Option Float) := do
  match ← onCursor (Cursor.accept operator?) with
  | none => return none
  | some apply =>
    let next ← operand
    return some (apply value next)

/-- One round of a list of arguments: an argument and the comma behind it, if an operand follows. -/
def argumentRound (expression : Parse Float) : Parse (Option Float) := do
  if ← onCursor Cursor.startsOperand then
    let value ← expression
    skipComma
    return some value
  else return none

section Rounds
variable {operator? : Char → Option (Float → Float → Float)} {operand : Parse Float}
  {value next : Float}

/-- A chain goes on round by round. -/
theorem chain_succ (rounds : Nat) (value : Float) :
    chain operator? operand (rounds + 1) value = (do
      match ← chainRound operator? operand value with
      | none => return value
      | some next => chain operator? operand rounds next) := by
  rw [chain, chainRound, bind_assoc]
  congr 1
  funext found
  cases found with
  | none => simp
  | some apply => simp

/-- A list of arguments goes on round by round. -/
theorem argumentList_succ (rounds : Nat) :
    argumentList operand (rounds + 1) = (do
      match ← argumentRound operand with
      | none => do close; return []
      | some value => do let more ← argumentList operand rounds; return value :: more) := by
  rw [argumentList, argumentRound, bind_assoc]
  congr 1
  funext starts
  cases starts with
  | false => simp
  | true => simp

theorem chainRound_steady (ho : Steady operand) : Steady (chainRound operator? operand value) := by
  refine (steady_onCursor (Cursor.advances_accept operator?)).bind fun found => ?_
  cases found with
  | none => exact steady_pure none
  | some apply => exact ho.bind fun next => steady_pure (some (apply value next))

theorem argumentRound_steady (ho : Steady operand) : Steady (argumentRound operand) := by
  refine (steady_onCursor Cursor.advances_startsOperand).bind fun starts => ?_
  cases starts with
  | false => exact steady_pure none
  | true => exact ho.bind fun value => skipComma_steady.bind fun _ => steady_pure (some value)

/-- A round of a chain has consumed its operator. -/
theorem chainRound_pos_lt (ho : Steady operand) (hs : s.cursor.InText)
    (h : chainRound operator? operand value s = .ok (some next) s') :
    s.cursor.pos < s'.cursor.pos := by
  obtain ⟨found, between, hfound, hrest⟩ := bind_eq_ok.mp h
  have hbetween := (steady_onCursor (Cursor.advances_accept operator?)).ahead hs hfound
  cases found with
  | none => cases hrest
  | some apply =>
    obtain ⟨x, last, hoperand, hlast⟩ := bind_eq_ok.mp hrest
    cases hlast
    obtain ⟨hsome, rfl⟩ := EStateM.Result.ok.inj hfound
    exact (Cursor.accept_pos_lt hsome).trans_le (ho.ahead hbetween.inText hoperand).pos_le

/-- A round of a list of arguments has consumed its argument. -/
theorem argumentRound_pos_lt (ho : Steady operand) (hc : Consuming operand) (hs : s.cursor.InText)
    (h : argumentRound operand s = .ok (some next) s') : s.cursor.pos < s'.cursor.pos := by
  obtain ⟨starts, first, hstarts, hrest⟩ := bind_eq_ok.mp h
  have hfirst := (steady_onCursor Cursor.advances_startsOperand).ahead hs hstarts
  cases starts with
  | false => cases hrest
  | true =>
    obtain ⟨x, behind, hoperand, hcomma⟩ := bind_eq_ok.mp hrest
    have hbehind := ho.ahead hfirst.inText hoperand
    have hlater := (skipComma_steady.bind fun _ => steady_pure (some x)).ahead hbehind.inText hcomma
    have hless := (hc first x behind hfirst.inText hoperand).length_lt
    have hlength := hfirst.inText.length_rest
    have hlength' := hbehind.inText.length_rest
    rw [hbehind.text_eq] at hlength'
    exact hfirst.pos_le.trans_lt (lt_of_lt_of_le (by omega) hlater.pos_le)

end Rounds

/-- The two runs are the same wherever less than `n` characters are left. -/
def SameBelow (n : Nat) (run run' : Parse α) : Prop :=
  ∀ s : State, s.cursor.InText → s.cursor.rest.length < n → run' s = run s

theorem SameBelow.map {n : Nat} {run run' : Parse α} (h : SameBelow n run run') (f : α → β) :
    SameBelow n (do let a ← run; return f a) (do let a ← run'; return f a) :=
  fun s hs hn => bind_same (h s hs hn) fun _ _ _ => rfl

section Same
variable {n : Nat} {operand operand' : Parse Float} (ho : Steady operand)
  (hsame : SameBelow n operand operand')
include hsame

theorem chainRound_same (operator? : Char → Option (Float → Float → Float)) (value : Float) :
    SameBelow n (chainRound operator? operand value) (chainRound operator? operand' value) := by
  intro s hs hn
  refine bind_same rfl fun found between hfound => ?_
  have hbetween := (steady_onCursor (Cursor.advances_accept operator?)).ahead hs hfound
  have hle := hbetween.length_le hs
  cases found with
  | none => rfl
  | some apply => exact hsame.map _ between hbetween.inText (by omega)

include ho

/-- Two chains are the same for any rounds that the text cannot exhaust. -/
theorem chain_same (operator? : Char → Option (Float → Float → Float)) :
    ∀ (rounds rounds' : Nat) (value : Float) (s : State), s.cursor.InText →
      s.cursor.rest.length < n → s.cursor.rest.length < rounds →
      s.cursor.rest.length < rounds' →
      chain operator? operand' rounds' value s = chain operator? operand rounds value s := by
  intro rounds
  induction rounds with
  | zero => intro rounds' value s _ _ h; omega
  | succ rounds ih =>
    intro rounds' value s hs hn hr hr'
    obtain ⟨m, rfl⟩ : ∃ m, rounds' = m + 1 := Nat.exists_eq_succ_of_ne_zero (by omega)
    rw [chain_succ, chain_succ]
    refine bind_same (chainRound_same hsame operator? value s hs hn) fun found later hround => ?_
    cases found with
    | none => rfl
    | some next =>
      have hlater := (chainRound_steady ho).ahead hs hround
      have hless := hlater.length_lt hs (chainRound_pos_lt ho hs hround)
      exact ih m next later hlater.inText (by omega) (by omega) (by omega)

theorem linked_same (operator? : Char → Option (Float → Float → Float)) {rounds rounds' : Nat}
    (hr : n ≤ rounds) (hr' : n ≤ rounds') (start : Float → Float) :
    SameBelow n (linked operator? operand rounds start)
      (linked operator? operand' rounds' start) := by
  intro s hs hn
  refine bind_same (hsame s hs hn) fun x later hrun => ?_
  have hlater := ho.ahead hs hrun
  have hle := hlater.length_le hs
  exact chain_same ho hsame operator? rounds rounds' (start x) later hlater.inText (by omega)
    (by omega) (by omega)

omit ho in
theorem argumentRound_same : SameBelow n (argumentRound operand) (argumentRound operand') := by
  intro s hs hn
  refine bind_same rfl fun starts first hstarts => ?_
  have hfirst := (steady_onCursor Cursor.advances_startsOperand).ahead hs hstarts
  have hle := hfirst.length_le hs
  cases starts with
  | false => rfl
  | true => exact bind_same (hsame first hfirst.inText (by omega)) fun _ _ _ => rfl

theorem argumentList_same (hc : Consuming operand) :
    ∀ (rounds rounds' : Nat) (s : State), s.cursor.InText → s.cursor.rest.length < n →
      s.cursor.rest.length < rounds → s.cursor.rest.length < rounds' →
      argumentList operand' rounds' s = argumentList operand rounds s := by
  intro rounds
  induction rounds with
  | zero => intro rounds' s _ _ h; omega
  | succ rounds ih =>
    intro rounds' s hs hn hr hr'
    obtain ⟨m, rfl⟩ : ∃ m, rounds' = m + 1 := Nat.exists_eq_succ_of_ne_zero (by omega)
    rw [argumentList_succ, argumentList_succ]
    refine bind_same (argumentRound_same hsame s hs hn) fun found later hround => ?_
    cases found with
    | none => rfl
    | some value =>
      have hlater := (argumentRound_steady ho).ahead hs hround
      have hless := hlater.length_lt hs (argumentRound_pos_lt ho hc hs hround)
      exact bind_same (ih m later hlater.inText (by omega) (by omega) (by omega))
        fun _ _ _ => rfl

end Same

section Inner
variable {n rounds rounds' : Nat} {inner inner' : Parse Float} (hi : Steady inner)
  (hsame : SameBelow n inner inner') (hr : n ≤ rounds) (hr' : n ≤ rounds')
include hi hsame hr hr'

theorem termOf_same : SameBelow n (termOf inner rounds) (termOf inner' rounds') :=
  linked_same hi hsame multiplicative? hr hr' id

theorem expressionOf_same : SameBelow n (expressionOf inner rounds) (expressionOf inner' rounds') :=
  linked_same (termOf_steady hi rounds) (termOf_same hi hsame hr hr') additive? hr hr' id

theorem argumentsOf_same (hc : Consuming inner) :
    SameBelow n (argumentsOf inner rounds) (argumentsOf inner' rounds') := by
  intro s hs hn
  refine bind_same rfl fun opens first hopens => ?_
  have hfirst := (steady_onCursor (Cursor.advances_consumeIf ['('])).ahead hs hopens
  have hle := hfirst.length_le hs
  cases opens with
  | false => exact hsame.map _ first hfirst.inText (by omega)
  | true =>
    refine bind_same rfl fun closes second hcloses => ?_
    have hsecond := (steady_onCursor (Cursor.advances_consumeIf [')'])).ahead hfirst.inText hcloses
    have hle' := hsecond.length_le hfirst.inText
    cases closes with
    | true => rfl
    | false =>
      exact argumentList_same (expressionOf_steady hi rounds) (expressionOf_same hi hsame hr hr')
        (expressionOf_consuming hi hc rounds) rounds rounds' second hsecond.inText (by omega)
        (by omega) (by omega)

omit hi hsame hr hr' in
theorem resolve_same {arguments arguments' : Parse (List Float)} (h : arguments' s = arguments s)
    (name : String) (start : Nat) :
    resolve evaluate arguments' name start s = resolve evaluate arguments name start s := by
  rcases meaning_cases (s.environment.bindings.meaning name) with ⟨x, hx⟩ | hfunction | hunknown
  · rw [resolve_held hx, resolve_held hx]
  · rw [resolve_function hfunction, resolve_function hfunction]
    exact bind_same h fun _ _ _ => rfl
  · rw [resolve_unknown hunknown, resolve_unknown hunknown]

/-- A factor starts with a token of its own, so the factors inside have less text left. -/
theorem factorOf_same (hc : Consuming inner) :
    SameBelow (n + 1) (factorOf evaluate inner rounds) (factorOf evaluate inner' rounds') := by
  rintro ⟨c, e⟩ hs hn
  obtain ⟨text, rest, hsuffix, rfl⟩ : ∃ text rest, rest <:+ text ∧ c = .facing text rest :=
    ⟨c.text, c.rest, Cursor.InText.suffix hs, Cursor.InText.eq_facing hs⟩
  have hle := hsuffix.length_le
  change factorOf evaluate inner' rounds' (.facing text rest e) =
    factorOf evaluate inner rounds (.facing text rest e)
  change rest.length < n + 1 at hn
  have hin : ∀ {t : Token} {more : List Char}, Next rest t more →
      (State.facing text more e).cursor.InText ∧
        (State.facing text more e).cursor.rest.length < n := fun hnext =>
    ⟨Cursor.inText_facing (hnext.suffix.trans hsuffix), by
      have hless := hnext.length_lt
      simp only [State.facing, Cursor.facing]
      omega⟩
  cases hstart : (rest.dropWhile isBlank).head?.any Cursor.isOperandStart with
  | false => rw [factorOf_fail hle hstart, factorOf_fail hle hstart]
  | true =>
    cases Cursor.lead_of_isOperandStart hstart with
    | sign negative more hsign =>
      rw [factorOf_sign hle hsign, factorOf_sign hle hsign]
      obtain ⟨hmore, hless⟩ := hin hsign
      cases negative with
      | false => exact hsame _ hmore hless
      | true => exact hsame.map _ _ hmore hless
    | group more hopen =>
      rw [factorOf_group hle hopen, factorOf_group hle hopen]
      obtain ⟨hmore, hless⟩ := hin hopen
      exact bind_same (expressionOf_same hi hsame hr hr' _ hmore hless) fun _ _ _ => rfl
    | number number more hnumber =>
      rw [factorOf_number hle hnumber, factorOf_number hle hnumber]
    | name name more hname =>
      rw [factorOf_name hle hname, factorOf_name hle hname]
      obtain ⟨hmore, hless⟩ := hin hname
      exact resolve_same (argumentsOf_same hi hsame hr hr' hc _ hmore hless) _ _

end Inner

/-- A factor with at most `depth` factors nested in each other and `rounds` for each loop. A factor
further inside does as `deeper` does. -/
def nestedFactor (evaluate : Evaluator) (deeper : Parse Float) (rounds : Nat) : Nat → Parse Float
  | 0 => deeper
  | depth + 1 => factorOf evaluate (nestedFactor evaluate deeper rounds depth) rounds

/-- Each nested factor starts further on than the one around it, so none is deeper than there are
characters left. -/
theorem nestedFactor_same (evaluate : Evaluator) (deeper : Parse Float) :
    ∀ n bound rounds depth : Nat, n ≤ bound → n ≤ rounds → n ≤ depth →
      SameBelow n (factor evaluate bound) (nestedFactor evaluate deeper rounds depth) := by
  intro n
  induction n with
  | zero => intro bound rounds depth _ _ _ s _ h; omega
  | succ n ih =>
    intro bound rounds depth hb hr hd
    obtain ⟨b, rfl⟩ : ∃ b, bound = b + 1 := Nat.exists_eq_succ_of_ne_zero (by omega)
    obtain ⟨d, rfl⟩ : ∃ d, depth = d + 1 := Nat.exists_eq_succ_of_ne_zero (by omega)
    exact factorOf_same (factor_steady evaluate b) (ih b rounds d (by omega) (by omega) (by omega))
      (by omega) (by omega) (factor_consuming evaluate b)

/-- A part, with `inner` for the factors in it. -/
def Part.of (inner : Parse Float) (rounds : Nat) : Part → Parse (List Float)
  | .whole => do let value ← wholeOf (expressionOf inner rounds); return [value]
  | .expression => do let value ← expressionOf inner rounds; return [value]
  | .term => do let value ← termOf inner rounds; return [value]
  | .factor => do let value ← inner; return [value]
  | .arguments => argumentsOf inner rounds

theorem Part.run_eq (evaluate : Evaluator) (bound : Nat) (part : Part) :
    part.run evaluate bound = part.of (Expression.factor evaluate bound) bound := by
  cases part <;> rfl

theorem Part.of_same {n rounds rounds' : Nat} {inner inner' : Parse Float} (hi : Steady inner)
    (hc : Consuming inner) (hsame : SameBelow n inner inner') (hr : n ≤ rounds) (hr' : n ≤ rounds')
    (part : Part) : SameBelow n (part.of inner rounds) (part.of inner' rounds') := by
  have hexpression := expressionOf_same hi hsame hr hr'
  cases part with
  | whole =>
    exact fun s hs hn =>
      bind_same (bind_same (hexpression s hs hn) fun _ _ _ => rfl) fun _ _ _ => rfl
  | expression => exact hexpression.map _
  | term => exact (termOf_same hi hsame hr hr').map _
  | factor => exact hsame.map _
  | arguments => exact argumentsOf_same hi hsame hr hr' hc

theorem Part.run_confined (evaluate : Evaluator) (part : Part) (position : Nat) (rest : List Char)
    (e : Environment) : Confined (fun bound _ => part.run evaluate bound) position rest e := by
  have hfactor := factor_confined evaluate (rest.length + 1)
  have hrest := Nat.lt_succ_self rest.length
  cases part with
  | whole => exact (whole_confined evaluate position rest e).map fun value => [value]
  | expression => exact (expression_confined hfactor position rest e hrest).map fun value => [value]
  | term => exact (term_confined hfactor position rest e hrest).map fun value => [value]
  | factor => exact (hfactor position rest e hrest).map fun value => [value]
  | arguments => exact argumentsOf_confined hfactor position rest e hrest

/-- A part ends with numbers or with a failure, and any bound larger than the text that is left
leads there. -/
theorem Part.run_stopped (evaluate : Evaluator) (part : Part) (hs : s.cursor.InText) :
    ∃ outcome final, ∀ bound, s.cursor.rest.length < bound →
      part.run evaluate bound s = stopped outcome final := by
  obtain ⟨outcome, front, left, after, hsplit, hruns⟩ :=
    part.run_confined evaluate s.cursor.pos s.cursor.rest s.environment
  have hlength := hs.length_rest
  have hstate : s = .facing s.cursor.text (front ++ left) s.environment :=
    hsplit ▸ State.eq_facing hs.eq_facing
  refine ⟨outcome, .facing s.cursor.text left after, fun bound hb => ?_⟩
  rw [hsplit] at hlength hb
  rw [hstate]
  exact hruns s.cursor.text left bound bound rfl hlength.symm hb hb

/-- From every place in a text of `n` characters every part ends, with numbers or with a failure.
Any bound above `n` leads to the same end, and so do `n + 1` factors nested in each other, whatever
one more inside would do. A factor, a term and an expression that succeed have consumed a character
that is no blank, and every round of the three loops has moved the cursor forward. -/
theorem parts_end (evaluate : Evaluator) (text : List Char) (start : Nat) (h : start ≤ text.length)
    (e : Environment) :
    let s : State := ⟨(Cursor.ofText text).moveTo start, e⟩
    (∀ part : Part, ∃ outcome final,
      (∀ bound, text.length < bound → part.run evaluate bound s = stopped outcome final) ∧
      ∀ deeper rounds depth, text.length < rounds → text.length < depth →
        part.of (nestedFactor evaluate deeper rounds depth) rounds s = stopped outcome final) ∧
    (∀ bound value s', factor evaluate bound s = .ok value s' ∨
      term evaluate bound s = .ok value s' ∨ expression evaluate bound s = .ok value s' →
        Consumes s s') ∧
    ∀ bound value next s',
      chainRound multiplicative? (factor evaluate bound) value s = .ok (some next) s' ∨
        chainRound additive? (term evaluate bound) value s = .ok (some next) s' ∨
        argumentRound (expression evaluate bound) s = .ok (some next) s' →
      s.cursor.pos < s'.cursor.pos := by
  intro s
  have hs : s.cursor.InText := ⟨Cursor.sound_moveTo _ _, h⟩
  have hle : s.cursor.rest.length ≤ text.length := hs.suffix.length_le
  refine ⟨fun part => ?_, fun bound value s' hrun => ?_, fun bound value next s' hround => ?_⟩
  · obtain ⟨outcome, final, hruns⟩ := part.run_stopped evaluate hs
    refine ⟨outcome, final, fun bound hb => hruns bound (by omega),
      fun deeper rounds depth hr hd => ?_⟩
    have hnested := nestedFactor_same evaluate deeper (text.length + 1) (text.length + 1) rounds
      depth le_rfl hr hd
    rw [part.of_same (factor_steady evaluate _) (factor_consuming evaluate _) hnested le_rfl hr s hs
      (by omega), ← part.run_eq]
    exact hruns _ (by omega)
  · have hsteady := factor_steady evaluate bound
    have hconsuming := factor_consuming evaluate bound
    rcases hrun with hrun | hrun | hrun
    · exact hconsuming s value s' hs hrun
    · exact termOf_consuming hsteady hconsuming bound s value s' hs hrun
    · exact expressionOf_consuming hsteady hconsuming bound s value s' hs hrun
  · have hsteady := factor_steady evaluate bound
    rcases hround with hround | hround | hround
    · exact chainRound_pos_lt hsteady hs hround
    · exact chainRound_pos_lt (termOf_steady hsteady bound) hs hround
    · exact argumentRound_pos_lt (expressionOf_steady hsteady bound)
        (expressionOf_consuming hsteady (factor_consuming evaluate bound) bound) hs hround

/-- A product, as an expression from its start, its first factor, and the round behind that. -/
theorem parts_end_product :
    (∃ outcome final,
      Part.expression.run (evaluateWithin .exact 0) 4
        ⟨(Cursor.ofText ['2', '*', '3']).moveTo 0, ⟨.empty, []⟩⟩ = stopped outcome final ∧
      ∀ deeper, Part.expression.of (nestedFactor (evaluateWithin .exact 0) deeper 4 4) 4
        ⟨(Cursor.ofText ['2', '*', '3']).moveTo 0, ⟨.empty, []⟩⟩ = stopped outcome final) ∧
    (∃ value s', factor (evaluateWithin .exact 0) 4
        ⟨(Cursor.ofText ['2', '*', '3']).moveTo 0, ⟨.empty, []⟩⟩ = .ok value s' ∧
      Consumes ⟨(Cursor.ofText ['2', '*', '3']).moveTo 0, ⟨.empty, []⟩⟩ s') ∧
    ∃ next s', chainRound multiplicative? (factor (evaluateWithin .exact 0) 4) 2.0
        ⟨(Cursor.ofText ['2', '*', '3']).moveTo 1, ⟨.empty, []⟩⟩ = .ok (some next) s' ∧
      1 < s'.cursor.pos := by
  obtain ⟨value, behind, hfactor⟩ : ∃ value s', factor (evaluateWithin .exact 0) 4
      ⟨(Cursor.ofText ['2', '*', '3']).moveTo 0, ⟨.empty, []⟩⟩ = .ok value s' := ⟨_, _, rfl⟩
  obtain ⟨next, later, hround⟩ : ∃ next s',
      chainRound multiplicative? (factor (evaluateWithin .exact 0) 4) 2.0
        ⟨(Cursor.ofText ['2', '*', '3']).moveTo 1, ⟨.empty, []⟩⟩ = .ok (some next) s' :=
    ⟨_, _, rfl⟩
  obtain ⟨hparts, hconsumes, -⟩ :=
    parts_end (evaluateWithin .exact 0) ['2', '*', '3'] 0 (by decide) ⟨.empty, []⟩
  obtain ⟨-, -, hrounds⟩ :=
    parts_end (evaluateWithin .exact 0) ['2', '*', '3'] 1 (by decide) ⟨.empty, []⟩
  obtain ⟨outcome, final, hruns, hnested⟩ := hparts .expression
  refine ⟨⟨outcome, final, hruns 4 (by decide), fun deeper => ?_⟩, ?_, ?_⟩
  · exact hnested deeper 4 4 (by decide) (by decide)
  · exact ⟨value, behind, hfactor, hconsumes 4 value behind (.inl hfactor)⟩
  · exact ⟨next, later, hround, hrounds 4 2.0 next later (.inl hround)⟩

end Expression

end Reckon
