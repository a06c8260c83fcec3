import Reckon.Proofs.Expression.Callee
import Reckon.Proofs.Expression.Lookahead
import Reckon.Proofs.Expression.Simulation
import Reckon.Proofs.Grammar.Response

/-!
# Where an evaluation stands

The cursor only ever moves forward, and never past the end of the text. So whatever is asked of an
evaluator, and whether it succeeds or fails, the next request starts from a place in the text that
is not before the last one. What a syntax error reports is what stands there.
-/
namespace Reckon
open Grammar Number
open Text (isBlank)

/-- The fault is one of the text in front of which it is found: a syntax error reports the
character there, which is no blank, and none only at the end of the text, and an unknown name
stands right before it. -/
def Fault.Placed (text : List Char) (position : Nat) : Fault → Prop
  | .unbalanced found place | .unexpected found place =>
    place = position ∧ found = text[position]? ∧ (found = none ↔ position = text.length) ∧
      ∀ c ∈ found, isBlank c = false
  | .unknownName name start => Expression.NameAt text start name ∧ position = start + name.length
  | .emptyInput | .argumentCount _ _ _ | .call _ _ => True

namespace Expression

variable {α β : Type} {evaluate : Evaluator} {s s' : State} {e : Environment} {c : Cursor}

def Halt.Placed (c : Cursor) : Halt → Prop
  | .failed (.fault fault) => fault.Placed c.text c.pos
  | .failed (.breakdown _) | .exhausted => True

/-- What a run has ended with, unless it has succeeded. -/
def haltOf : EStateM.Result Halt State α → Option Halt
  | .ok _ _ => none
  | .error halt _ => some halt

/-- A run that starts here ends further on in the text. Without custom functions nothing else has
changed, and a fault lies where the run has ended. -/
structure Leads (s : State) (r : EStateM.Result Halt State α) : Prop where
  ahead : s.cursor.Ahead (finalState r).cursor
  alone : s.environment.bindings.functions = .empty →
    (finalState r).environment = s.environment ∧
      ∀ halt, haltOf r = some halt → halt.Placed (finalState r).cursor

/-- The run moves on from every place in a text. -/
def Steady (run : Parse α) : Prop :=
  ∀ s : State, s.cursor.InText → Leads s (run s)

theorem leads_ok (h : s.cursor.Ahead c) (a : α) : Leads s (.ok a ⟨c, s.environment⟩) :=
  ⟨h, fun _ => ⟨rfl, fun _ hhalt => by cases hhalt⟩⟩

theorem leads_error {halt : Halt} (h : s.cursor.Ahead c) (hhalt : halt.Placed c) :
    Leads s (.error halt ⟨c, s.environment⟩ : EStateM.Result Halt State α) :=
  ⟨h, fun _ => ⟨rfl, fun _ hsame => Option.some.inj hsame ▸ hhalt⟩⟩

/-- The way to the start of a run belongs to it. -/
theorem Leads.of_ahead {r : EStateM.Result Halt State α} (h : s.cursor.Ahead c)
    (hr : Leads ⟨c, s.environment⟩ r) : Leads s r :=
  ⟨h.trans hr.ahead, hr.alone⟩

theorem Leads.bind {run : Parse α} {next : α → Parse β} (h : Leads s (run s))
    (hnext : ∀ a s', run s = .ok a s' → Leads s' (next a s')) : Leads s ((run >>= next) s) := by
  cases hrun : run s with
  | error halt s' =>
    rw [bind_error hrun]
    rw [hrun] at h
    exact ⟨h.ahead, h.alone⟩
  | ok a s' =>
    rw [bind_ok hrun]
    rw [hrun] at h
    have hlater := hnext a s' hrun
    refine ⟨h.ahead.trans hlater.ahead, fun hfunctions => ?_⟩
    have hsame : s'.environment = s.environment := (h.alone hfunctions).1
    have halone := hlater.alone (hsame ▸ hfunctions)
    exact ⟨halone.1.trans hsame, halone.2⟩

/-- Where a run has moved to that succeeds. -/
theorem Leads.ahead_of_ok {r : EStateM.Result Halt State α} {a : α} (h : Leads s r)
    (hr : r = .ok a s') : s.cursor.Ahead s'.cursor := by
  subst hr
  exact h.ahead

theorem Steady.ahead {run : Parse α} (h : Steady run) {a : α} (hs : s.cursor.InText)
    (hrun : run s = .ok a s') : s.cursor.Ahead s'.cursor :=
  (h s hs).ahead_of_ok hrun

theorem Steady.bind {run : Parse α} {next : α → Parse β} (h : Steady run)
    (hnext : ∀ a, Steady (next a)) : Steady (run >>= next) :=
  fun s hs => (h s hs).bind fun a s' hrun => hnext a s' (h.ahead hs hrun).inText

theorem steady_onCursor {operation : Cursor → α × Cursor} (h : Cursor.Advances operation) :
    Steady (onCursor operation) :=
  fun s hs => leads_ok (h s.cursor hs) _

theorem steady_pure (a : α) : Steady (pure a) := fun _ hs => leads_ok (.refl hs) a

theorem steady_exhausted : Steady (exhausted : Parse α) :=
  fun _ hs => leads_error (.refl hs) trivial

theorem steady_builtin (name : String) (function : Builtin) (values : List Float) :
    Steady (callBuiltin name function values) := by
  intro s hs
  change Leads s (lift ((function.apply values).mapError .breakdown) s)
  cases function.apply values with
  | ok value => exact leads_ok (.refl hs) value
  | error breakdown => exact leads_error (.refl hs) trivial

/-- A syntax error in front of a character that is no blank, or at the end. -/
theorem leads_failAt {rejection : Option Char → Nat → Rejection}
    (hrejection : rejection = .unexpected ∨ rejection = .unbalanced) (hs : s.cursor.InText)
    (hclear : Clear s.cursor.rest) : Leads s ((failAt rejection : Parse α) s) := by
  have hlength := hs.length_rest
  have hplaced : s.cursor.pos = s.cursor.pos ∧ s.cursor.current = s.cursor.text[s.cursor.pos]? ∧
      (s.cursor.current = none ↔ s.cursor.pos = s.cursor.text.length) ∧
      ∀ c ∈ s.cursor.current, isBlank c = false := by
    refine ⟨rfl, hs.sound.current_eq, ?_, ?_⟩
    · rw [Cursor.current, List.head?_eq_none_iff, ← List.length_eq_zero_iff]
      omega
    · rw [Cursor.current, ← hclear]
      exact head?_dropWhile_eq_false
  rcases hrejection with rfl | rfl <;> exact leads_error (.refl hs) hplaced

/-- All that is read between names moves on. -/
theorem steady : Simulation fun α (run run' : Parse α) => run = run' ∧ Steady run where
  pure a := ⟨rfl, steady_pure a⟩
  bind h hnext := ⟨by rw [h.1, funext fun a => (hnext a).1], h.2.bind fun a => (hnext a).2⟩
  onCursor h := ⟨rfl, steady_onCursor h.advances⟩
  exhausted := ⟨rfl, steady_exhausted⟩

theorem skipComma_steady : Steady skipComma := steady.skipComma.2

theorem close_steady : Steady close := by
  refine (steady_onCursor (Cursor.advances_consumeIf [')'])).bind fun found => ?_
  cases found with
  | true => exact steady_pure ()
  | false =>
    -- the blanks in front of what is found instead are skipped before it is reported
    intro s hs
    have hskip := Cursor.ahead_skipBlanks hs
    refine Leads.of_ahead hskip (leads_failAt (.inr rfl) hskip.inText ?_)
    rw [Cursor.rest_skipBlanks]
    exact clear_dropWhile _

section Parts
variable {inner : Parse Float} (hi : Steady inner) (rounds : Nat)
include hi

theorem chain_steady (l : Level) (value : Float) : Steady (chain l.operator? inner rounds value) :=
  (steady.chain l ⟨rfl, hi⟩ rounds value).2

theorem termOf_steady : Steady (termOf inner rounds) := (steady.termOf ⟨rfl, hi⟩ rounds).2

theorem expressionOf_steady : Steady (expressionOf inner rounds) :=
  (steady.expressionOf ⟨rfl, hi⟩ rounds).2

theorem argumentsOf_steady : Steady (argumentsOf inner rounds) :=
  (steady.argumentsOf ⟨rfl, hi⟩ rounds ⟨rfl, close_steady⟩).2

end Parts

/-- A call does not move the cursor. -/
theorem applied_cursor {meaning : Meaning} {callee : Callee} (h : meaning.callee? = some callee)
    (name : String) (values : List Float) (s : State) :
    (finalState (applied evaluate name meaning values s)).cursor = s.cursor := by
  rw [applied_eq_call h]
  cases (callee.call evaluate name values s.environment).1 <;> rfl

theorem requireArity_steady (name : String) (arity : Option Nat) (values : List Float) :
    Steady (requireArity name arity values) := by
  intro s hs
  rw [requireArity_eq]
  split
  · exact leads_ok (.refl hs) ()
  · exact leads_error (.refl hs) trivial

section Name
variable {arguments : Parse (List Float)} (ha : Steady arguments)
include ha

/-- A function is called where its arguments end. A custom one may do anything to the tables. -/
theorem call_leads {meaning : Meaning} {callee : Callee} {name : String} (hs : s.cursor.InText)
    (hm : s.environment.bindings.meaning name = meaning) (hcallee : meaning.callee? = some callee) :
    Leads s ((do let values ← arguments; applied evaluate name meaning values) s) := by
  cases callee with
  | builtin function =>
    obtain rfl : meaning = .builtin function := by cases meaning <;> simp_all [Meaning.callee?]
    exact ha.bind (fun values => (requireArity_steady name function.arity values).bind fun _ =>
      steady_builtin name function values) s hs
  | custom function =>
    obtain rfl := Meaning.eq_custom_of_callee? hcallee
    refine ⟨?_, fun hempty => ?_⟩
    · cases hrun : arguments s with
      | error halt s' =>
        have hahead := (ha s hs).ahead
        rw [hrun] at hahead
        rwa [bind_error hrun]
      | ok values s' =>
        rw [bind_ok hrun, applied_cursor hcallee]
        exact ha.ahead hs hrun
    · have hfound := Bindings.get?_of_meaning hm
      simp [hempty] at hfound

theorem resolve_leads {name : String} {start : Nat} (hs : s.cursor.InText)
    (hn : NameAt s.cursor.text start name) (hstart : s.cursor.pos = start + name.length) :
    Leads s (resolve evaluate arguments name start s) := by
  rcases meaning_callee_cases (s.environment.bindings.meaning name) with
    ⟨-, x, hx⟩ | ⟨callee, hcallee, hfunction⟩ | hunknown
  · rw [resolve_held hx]
    exact leads_ok (.refl hs) x
  · rw [resolve_function hfunction]
    exact call_leads ha hs rfl hcallee
  · rw [resolve_unknown hunknown]
    exact leads_error (.refl hs) ⟨hn, hstart⟩

omit ha in
theorem literalOrFail_leads (hs : c.InText) (hclear : Clear c.rest) :
    Leads ⟨c, e⟩ ((literalOrFail : Parse Float) ⟨c, e⟩) := by
  cases hstarts : c.startsNumber with
  | false =>
    rw [literalOrFail_fail hstarts]
    exact leads_failAt (.inl rfl) hs hclear
  | true =>
    rw [literalOrFail_literal hstarts, literal_eq hstarts]
    exact leads_ok (Cursor.advances_scanNumber c hs) _

theorem operand_steady : Steady (operand evaluate arguments) := by
  rintro ⟨c, e⟩ hs
  have hskip : (⟨c, e⟩ : State).cursor.Ahead c.skipBlanks := Cursor.ahead_skipBlanks hs
  refine Leads.of_ahead hskip ?_
  cases hn : Cursor.nameOf c.skipBlanks.rest with
  | some name =>
    have hname := Cursor.ahead_forward hskip.inText (Cursor.nameOf_length_le hn)
    rw [operand_name hn]
    refine Leads.of_ahead hname (resolve_leads ha hname.inText ?_ (by simp [Cursor.forward]))
    exact nameAt_of_nameOf hskip.inText.sound hn
  | none =>
    rw [operand_unnamed hn]
    refine literalOrFail_leads hskip.inText ?_
    rw [Cursor.rest_skipBlanks]
    exact clear_dropWhile _

end Name

theorem factor_steady (evaluate : Evaluator) (bound : Nat) : Steady (factor evaluate bound) :=
  (steady.factorWithin ⟨rfl, close_steady⟩ (fun bound hi =>
    ⟨rfl, operand_steady (argumentsOf_steady hi.2 bound)⟩) bound).2

/-- A chain ends behind the blanks where it has looked for an operator. -/
theorem chain_clear {operator? : Char → Option (Float → Float → Float)} {operand : Parse Float}
    {rounds : Nat} {value result : Float}
    (h : chain operator? operand rounds value s = .ok result s') : Clear s'.cursor.rest := by
  induction rounds generalizing s value with
  | zero => cases h
  | succ rounds ih =>
    obtain ⟨found, between, hfound, hrest⟩ := bind_eq_ok.mp h
    cases found with
    | some apply =>
      obtain ⟨next, later, -, hchain⟩ := bind_eq_ok.mp hrest
      exact ih hchain
    | none =>
      cases hrest
      obtain ⟨hnone, rfl⟩ := EStateM.Result.ok.inj hfound
      have hskipped : (Cursor.accept operator? s.cursor).2 = s.cursor.skipBlanks := by
        simp only [Cursor.accept] at hnone ⊢
        split
        · rfl
        · split <;> simp_all
      simp only [hskipped, Cursor.rest_skipBlanks]
      exact clear_dropWhile _

theorem whole_steady (bound : Nat) : Steady (whole evaluate bound) := by
  intro s hs
  have hexpression := expressionOf_steady (factor_steady evaluate bound) bound
  refine (hexpression s hs).bind fun value s' hrun => ?_
  have hs' := (hexpression.ahead hs hrun).inText
  have hclear : Clear s'.cursor.rest := by
    obtain ⟨x, between, -, hchain⟩ := bind_eq_ok.mp hrun
    exact chain_clear hchain
  have hends : (onCursor fun c => (c.atEnd, c) : Parse Bool) s' = .ok s'.cursor.atEnd s' := rfl
  rw [bind_ok hends]
  cases s'.cursor.atEnd with
  | true => exact leads_ok (.refl hs') value
  | false => exact leads_failAt (.inl rfl) hs' hclear

/-- What can be asked of an evaluator. -/
inductive Part where
  | whole
  | expression
  | term
  | factor
  | arguments

/-- Reads a part, and returns the numbers that it comes to. -/
def Part.run (evaluate : Evaluator) (bound : Nat) : Part → Parse (List Float)
  | .whole => do let value ← Expression.whole evaluate bound; return [value]
  | .expression => do let value ← Expression.expression evaluate bound; return [value]
  | .term => do let value ← Expression.term evaluate bound; return [value]
  | .factor => do let value ← Expression.factor evaluate bound; return [value]
  | .arguments => Expression.arguments evaluate bound

theorem Part.run_steady (evaluate : Evaluator) (bound : Nat) (part : Part) :
    Steady (part.run evaluate bound) := by
  have hfactor := factor_steady evaluate bound
  cases part with
  | whole => exact (whole_steady bound).bind fun value => steady_pure [value]
  | expression => exact (expressionOf_steady hfactor bound).bind fun value => steady_pure [value]
  | term => exact (termOf_steady hfactor bound).bind fun value => steady_pure [value]
  | factor => exact hfactor.bind fun value => steady_pure [value]
  | arguments => exact argumentsOf_steady hfactor bound

/-- Asks for parts one after another, each one from where the one before has ended, be it with
numbers or with a failure. -/
def requests (evaluate : Evaluator) : List Part → State → List (Option Halt × State)
  | [], _ => []
  | part :: parts, s =>
    let r := part.run evaluate (boundFor s.cursor.text) s
    (haltOf r, finalState r) :: requests evaluate parts (finalState r)

/-- However one goes on, no request leaves the text or goes back. Without custom functions every
fault on the way lies where its request has ended. -/
theorem requests_ahead (evaluate : Evaluator) (parts : List Part) (hs : s.cursor.InText) :
    (s :: (requests evaluate parts s).map Prod.snd).Pairwise (fun a b => a.cursor.Ahead b.cursor) ∧
    (s.environment.bindings.functions = .empty →
      ∀ ending ∈ requests evaluate parts s, ∀ halt, ending.1 = some halt →
        halt.Placed ending.2.cursor) := by
  induction parts generalizing s with
  | nil => exact ⟨List.pairwise_singleton _ _, fun _ _ h => absurd h List.not_mem_nil⟩
  | cons part parts ih =>
    obtain ⟨hahead, halone⟩ := part.run_steady evaluate (boundFor s.cursor.text) s hs
    obtain ⟨hothers, hplaced⟩ := ih hahead.inText
    refine ⟨List.pairwise_cons.mpr ⟨fun later hlater => ?_, hothers⟩, fun hempty => ?_⟩
    · rcases List.mem_cons.mp hlater with rfl | hlater
      · exact hahead
      · exact hahead.trans ((List.pairwise_cons.mp hothers).1 later hlater)
    · obtain ⟨hsame, hhalt⟩ := halone hempty
      exact List.forall_mem_cons.mpr ⟨hhalt, hplaced (hsame ▸ hempty)⟩

/-- Whatever parts are asked for one after another, going on after failures too, the position
starts at the first character and never decreases, and it never exceeds the length of the text.
Without custom functions every syntax error reports the position where its request has ended and
the character there, which is no blank, and none exactly at the end of the text, and every unknown
name is the text at its position, with the cursor right behind it. -/
theorem requests_placed (evaluate : Evaluator) (text : List Char) (e : Environment)
    (parts : List Part) :
    let endings := requests evaluate parts ⟨.ofText text, e⟩
    (0 :: endings.map fun ending => ending.2.cursor.pos).Pairwise (· ≤ ·) ∧
    (∀ ending ∈ endings, ending.2.cursor.text = text ∧ ending.2.cursor.pos ≤ text.length) ∧
    (e.bindings.functions = .empty → ∀ ending ∈ endings, ∀ fault,
      ending.1 = some (.failed (.fault fault)) → fault.Placed text ending.2.cursor.pos) := by
  intro endings
  obtain ⟨hahead, hplaced⟩ :=
    requests_ahead evaluate (s := ⟨.ofText text, e⟩) parts (Cursor.inText_ofText text)
  have hstart : ∀ ending ∈ endings, (Cursor.ofText text).Ahead ending.2.cursor := fun ending h =>
    (List.pairwise_cons.mp hahead).1 ending.2 (List.mem_map_of_mem h)
  refine ⟨?_, fun ending h => ?_, fun hempty ending h fault hfault => ?_⟩
  · have hpositions : ((⟨.ofText text, e⟩ :: endings.map Prod.snd).map
        fun s : State => s.cursor.pos).Pairwise (· ≤ ·) :=
      hahead.map _ fun _ _ h => h.pos_le
    rwa [List.map_cons, List.map_map] at hpositions
  · have htext : ending.2.cursor.text = text := (hstart ending h).text_eq
    have hle := (hstart ending h).inText.pos_le
    exact ⟨htext, by rwa [htext] at hle⟩
  · have htext : ending.2.cursor.text = text := (hstart ending h).text_eq
    have hhalt := hplaced hempty ending h _ hfault
    rwa [Halt.Placed, htext] at hhalt

/-- An open parenthesis, and after that failure the name in front of which it has been found. -/
theorem requests_placed_unclosed :
    ∃ first second, requests (evaluateWithin .exact 0) [.factor, .whole]
        ⟨.ofText "(1 ab".toList, ⟨.empty, []⟩⟩ = [first, second] ∧
      (Fault.unbalanced (some 'a') 3).Placed "(1 ab".toList first.2.cursor.pos ∧
      (Fault.unknownName "ab" 3).Placed "(1 ab".toList second.2.cursor.pos := by
  obtain ⟨-, -, hplaced⟩ := requests_placed (evaluateWithin .exact 0) "(1 ab".toList ⟨.empty, []⟩
    [.factor, .whole]
  exact ⟨_, _, rfl, hplaced rfl _ List.mem_cons_self _ rfl,
    hplaced rfl _ (List.mem_cons_of_mem _ List.mem_cons_self) _ rfl⟩

end Expression

end Reckon
