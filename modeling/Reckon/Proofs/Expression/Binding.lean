import Reckon.Proofs.Expression.Events
import Reckon.Proofs.Expression.Lookahead

/-!
# When names are looked up

Callbacks may change the very bindings that an expression is evaluated under, so it matters when a
name is looked up. An evaluation carries out the plan of its expression, one part after the other,
and the events of each part are in order. So a name is looked up under the bindings that the calls
before have left, and what is called behind its arguments is the function found in front of them.
-/
namespace Reckon

namespace Expression
open Grammar Number

variable {α β : Type} {evaluate : Evaluator} {e : Environment} {c d : Cursor}

/-- What a run has come to, where the cursor stands if it goes on, and the environment then. -/
def seen : EStateM.Result Halt State α → Except Halt (α × Cursor) × Environment
  | .ok a s => (.ok (a, s.cursor), s.environment)
  | .error halt s => (.error halt, s.environment)

theorem eq_ok_of_seen {r : EStateM.Result Halt State α} {a : α} {after : Environment}
    (h : seen r = (.ok (a, d), after)) : r = .ok a ⟨d, after⟩ := by
  cases r with
  | ok b s =>
    obtain ⟨hb, rfl⟩ := Prod.mk.inj h
    obtain ⟨rfl, rfl⟩ := Prod.mk.inj (Except.ok.inj hb)
    rfl
  | error halt s => cases h

theorem eq_error_of_seen {r : EStateM.Result Halt State α} {halt : Halt} {after : Environment}
    (h : seen r = (.error halt, after)) : ∃ s, r = .error halt s ∧ s.environment = after := by
  cases r with
  | ok b s => cases h
  | error other s =>
    obtain ⟨hhalt, rfl⟩ := Prod.mk.inj h
    obtain rfl := Except.error.inj hhalt
    exact ⟨s, rfl, rfl⟩

/-- The events of a plan from a cursor on, whether it goes on or ends there. -/
def Proper (evaluate : Evaluator) (c : Cursor) (e : Environment) (events : List Event) :
    Except Ending (α × Cursor) → Prop
  | .ok (_, d) => c.Ahead d ∧ Balanced events ∧ Course evaluate c e d.pos events
  | .error ending => Broken evaluate ending events ∧ ∃ last, Course evaluate c e last events

/-- A run carries out the plan of a script from here on. -/
structure CarriesOut (evaluate : Evaluator) (c : Cursor) (e : Environment)
    (plan : Plan (α × Cursor)) (run : EStateM.Result Halt State α) : Prop where
  seen : seen run = ((plan.perform evaluate e).1.mapError Ending.halt, (plan.perform evaluate e).2)
  proper : Proper evaluate c e (plan.events evaluate e) (plan.perform evaluate e).1

/-- From every place in a text the run carries out the plan of the script. -/
def Planned (evaluate : Evaluator) (script : Script α) (run : Parse α) : Prop :=
  ∀ (c : Cursor) (e : Environment), c.InText → CarriesOut evaluate c e (script c) (run ⟨c, e⟩)

theorem planned_pure (a : α) : Planned evaluate (pure a) (pure a) :=
  fun _ _ hc => ⟨rfl, .refl hc, .nil, .none (Cursor.nameless_refl ..)⟩

theorem planned_onCursor {operation : Cursor → α × Cursor} (h : Cursor.Skims operation) :
    Planned evaluate (onCursor operation) (onCursor operation) :=
  fun c _ hc => ⟨rfl, h.advances c hc, .nil, .none (h.nameless c hc)⟩

theorem planned_stop {reason : Stop} {script : Script α} {run : Parse α} (hr : Plain reason)
    (h : script c = .stop reason) (hrun : seen (run ⟨c, e⟩) = (.error reason.halt, e)) :
    CarriesOut evaluate c e (script c) (run ⟨c, e⟩) := by
  rw [h]
  exact ⟨hrun, .stopped .nil hr, c.pos, .none (Cursor.nameless_refl ..)⟩

theorem planned_exhausted : Planned evaluate (exhausted : Script α) exhausted :=
  fun _ _ _ => planned_stop .exhausted rfl rfl

theorem planned_unexpected : Planned evaluate (failAt .unexpected : Script α) (failAt .unexpected) :=
  fun c _ _ => planned_stop (.unexpected c.current c.pos) rfl rfl

theorem Planned.bind {script : Script α} {run : Parse α} {next : α → Script β}
    {nextRun : α → Parse β} (h : Planned evaluate script run)
    (hnext : ∀ a, Planned evaluate (next a) (nextRun a)) :
    Planned evaluate (script >>= next) (run >>= nextRun) := by
  intro c e hc
  obtain ⟨hseen, hproper⟩ := h c e hc
  have hafter := (script c).perform_environment evaluate e
  change CarriesOut evaluate c e (script c >>= fun r => next r.1 r.2) ((run >>= nextRun) ⟨c, e⟩)
  refine ⟨?_, ?_⟩
  · rw [Plan.perform_bind]
    rcases hplan : (script c).perform evaluate e with ⟨ending | ⟨a, d⟩, after⟩
    · rw [hplan] at hseen
      obtain ⟨s, hrun, rfl⟩ := eq_error_of_seen hseen
      rw [bind_error hrun]
      rfl
    · rw [hplan] at hseen hproper
      rw [bind_ok (eq_ok_of_seen hseen)]
      exact (hnext a d after hproper.1.inText).seen
  · rw [Plan.perform_bind, Plan.events_bind]
    rcases hplan : (script c).perform evaluate e with ⟨ending | ⟨a, d⟩, after⟩
    · rw [hplan] at hproper
      rw [List.append_nil]
      exact ⟨hproper.1, hproper.2⟩
    · rw [hplan] at hproper hafter
      obtain ⟨hahead, hbalanced, hcourse⟩ := hproper
      obtain rfl : after = afterEvents evaluate e ((script c).events evaluate e) := hafter
      have hproper' :=
        (hnext a d (afterEvents evaluate e ((script c).events evaluate e)) hahead.inText).proper
      change Proper evaluate c e (_ ++ (next a d).events evaluate _)
        ((next a d).perform evaluate _).1
      rcases hresult : ((next a d).perform evaluate
        (afterEvents evaluate e ((script c).events evaluate e))).1 with ending | ⟨b, f⟩
      · rw [hresult] at hproper'
        obtain ⟨hbroken, last, hcourse'⟩ := hproper'
        exact ⟨hbroken.append hbalanced, last, hcourse.append hahead.text_eq hcourse'⟩
      · rw [hresult] at hproper'
        obtain ⟨hahead', hbalanced', hcourse'⟩ := hproper'
        exact ⟨hahead.trans hahead', hbalanced.append hbalanced',
          hcourse.append hahead.text_eq hcourse'⟩

theorem planned (evaluate : Evaluator) :
    Simulation fun α (script : Script α) (run : Parse α) => Planned evaluate script run where
  pure := planned_pure
  bind := Planned.bind
  onCursor := planned_onCursor
  exhausted := planned_exhausted

theorem close_planned : Planned evaluate close close :=
  (planned_onCursor (Cursor.skims_consumeIf rfl)).bind fun found => by
    cases found with
    | true => exact planned_pure ()
    | false =>
      exact (planned_onCursor Cursor.skims_skipBlanks).bind fun _ c _ _ =>
        planned_stop (.unbalanced c.current c.pos) rfl rfl

/-- Reads arguments, and calls a function on them. -/
def thenCall (arguments : Script (List Float)) (name : String) (callee : Callee) : Script Float := do
  let values ← arguments
  requireArity name callee.arity values
  fun c => .call name callee values c.pos fun value => .done (value, c)

/-- What a script goes on with when a name is found to have a meaning. -/
def proceed (arguments : Script (List Float)) (name : String) (start : Nat) (meaning : Meaning)
    (c : Cursor) : Plan (Float × Cursor) :=
  match meaning.callee? with
  | some callee => thenCall arguments name callee c
  | none =>
    match held meaning with
    | some value => .done (value, c)
    | none => .stop (.rejected (.unknownName name start))

section Names
variable {arguments : Script (List Float)} {run : Parse (List Float)} {name : String}
  {meaning : Meaning} {callee : Callee}

theorem script_resolve (start : Nat) :
    (resolve () arguments name start : Script Float) c =
      .look name start fun meaning => proceed arguments name start meaning c :=
  congrArg (Plan.look name start) (funext fun meaning => by cases meaning <;> rfl)

theorem script_operand :
    (operand () arguments : Script Float) c =
      Script.scanName c.skipBlanks >>= fun found =>
        found.1.elim literalOrFail (fun name => resolve () arguments name c.skipBlanks.pos)
          found.2 := by
  refine congrArg (Script.scanName c.skipBlanks >>= ·) (funext fun found => ?_)
  obtain ⟨_ | name, d⟩ := found <;> rfl

theorem script_operand_name {text : List Char} (h : Cursor.nameOf c.skipBlanks.rest = some text) :
    (operand () arguments : Script Float) c =
      .scan (String.ofList text) c.skipBlanks.pos
        (resolve () arguments (String.ofList text) c.skipBlanks.pos
          (c.skipBlanks.forward text.length)) := by
  rw [script_operand, Script.scanName, Cursor.scanIdentifier, h]
  rfl

theorem script_operand_unnamed (h : Cursor.nameOf c.skipBlanks.rest = none) :
    (operand () arguments : Script Float) c = (literalOrFail : Script Float) c.skipBlanks := by
  rw [script_operand, Script.scanName, Cursor.scanIdentifier, h]
  rfl

theorem script_requireArity (values : List Float) :
    (requireArity name callee.arity values : Script Unit) c =
      if callee.takes values then .done ((), c)
      else .stop (.rejected (callee.refusal name values)) := by
  simp only [requireArity, checkCall, checkArity, Callee.takes_eq_admits]
  by_cases h : admits (callee.arity.map Int.ofNat) values.length = true
  · simp only [h, if_true]
    rfl
  · simp only [h]
    rfl

/-- The name stands between the two cursors. -/
structure Named (c d : Cursor) (name : String) : Prop where
  ahead : c.Ahead d
  nameAt : NameAt c.text c.pos name
  pos_eq : d.pos = c.pos + name.length

/-- The name comes before the events of its arguments. -/
theorem Named.course (h : Named c d name) {last : Nat} {inner : List Event}
    (hi : Course evaluate d e last inner) :
    Course evaluate c e last
      (.scanned name c.pos :: .looked name c.pos (e.bindings.meaning name) :: inner) := by
  have horder := hi.inOrder
  rw [h.ahead.text_eq, h.pos_eq] at horder
  exact ⟨.looked hi.prompt, answered_looked.append (h.ahead.text_eq ▸ hi.answered),
    .scanned (Cursor.nameless_refl ..) h.nameAt (.looked horder)⟩

/-- The name comes before the events of its arguments, and its call behind them. -/
theorem Named.course_called (h : Named c d name) {place : Nat} {inner : List Event}
    {values : List Float} (hm : (e.bindings.meaning name).callee? = some callee)
    (hi : Course evaluate d e place inner) (hbalanced : Balanced inner)
    (htakes : callee.takes values = true) (hread : ArgumentsAt d.text d.pos place) :
    Course evaluate c e place (.scanned name c.pos :: .looked name c.pos (e.bindings.meaning name) ::
      (inner ++ [.called name callee values place])) := by
  have horder := hi.inOrder
  rw [h.ahead.text_eq, h.pos_eq] at horder hread
  refine ⟨.looked (hi.prompt.append (.called (.nil _))), ?_, ?_⟩
  · exact answered_call hm hbalanced (h.ahead.text_eq ▸ hi.answered) htakes hread
  · exact .scanned (Cursor.nameless_refl ..) h.nameAt (.looked (horder.append
      (.called (Cursor.nameless_refl ..) (.nil (Cursor.nameless_refl ..)))))

/-- A function is called once its arguments have been read, as the one that was looked up. -/
theorem Named.carriesOut_call (h : Named c d name) (ha : Planned evaluate arguments run)
    (hm : (e.bindings.meaning name).callee? = some callee)
    (hread : ∀ values s, run ⟨d, e⟩ = .ok values s → ArgumentsAt d.text d.pos s.cursor.pos) :
    CarriesOut evaluate c e
      (.scan name c.pos (.look name c.pos fun meaning => proceed arguments name c.pos meaning d))
      ((do let values ← run; applied evaluate name (e.bindings.meaning name) values) ⟨d, e⟩) := by
  obtain ⟨hseen, hproper⟩ := ha d e h.ahead.inText
  have hafter := (arguments d).perform_environment evaluate e
  have hproceed : proceed arguments name c.pos (e.bindings.meaning name) d =
      arguments d >>= fun r => (requireArity name callee.arity r.1 : Script Unit) r.2 >>= fun u =>
        .call name callee r.1 u.2.pos fun value => .done (value, u.2) := by
    simp only [proceed, hm]
    rfl
  suffices hmain : seen ((do let values ← run; applied evaluate name (e.bindings.meaning name) values)
        ⟨d, e⟩) =
      (((proceed arguments name c.pos (e.bindings.meaning name) d).perform evaluate e).1.mapError
          Ending.halt,
        ((proceed arguments name c.pos (e.bindings.meaning name) d).perform evaluate e).2) ∧
      Proper evaluate c e (.scanned name c.pos :: .looked name c.pos (e.bindings.meaning name) ::
          (proceed arguments name c.pos (e.bindings.meaning name) d).events evaluate e)
        ((proceed arguments name c.pos (e.bindings.meaning name) d).perform evaluate e).1 from
    ⟨hmain.1, hmain.2⟩
  rw [hproceed, Plan.perform_bind, Plan.events_bind]
  rcases hplan : (arguments d).perform evaluate e with ⟨ending | ⟨values, f⟩, after⟩
  · rw [hplan] at hseen hproper
    obtain ⟨s, hrun, rfl⟩ := eq_error_of_seen hseen
    obtain ⟨hbroken, last, hcourse⟩ := hproper
    rw [bind_error hrun, List.append_nil]
    exact ⟨rfl, .waiting .nil hm hbroken, last, h.course hcourse⟩
  · rw [hplan] at hseen hproper hafter
    obtain ⟨hahead, hbalanced, hcourse⟩ := hproper
    obtain rfl : after = afterEvents evaluate e ((arguments d).events evaluate e) := hafter
    have hrun := eq_ok_of_seen hseen
    have harguments := hread _ _ hrun
    rw [bind_ok hrun, applied_eq_call hm]
    simp only [script_requireArity]
    cases htakes : callee.takes values with
    | false =>
      rw [Callee.call_refused htakes]
      simp only [Bool.false_eq_true, if_false]
      refine ⟨rfl, ?_⟩
      change Proper evaluate c e (_ :: _ :: (_ ++ [])) (.error _)
      rw [List.append_nil]
      exact ⟨.refused .nil hm hbalanced htakes, f.pos, h.course hcourse⟩
    | true =>
      rw [Callee.call_of_takes htakes]
      simp only [if_true]
      have hlast := h.course_called hm hcourse hbalanced htakes harguments
      generalize afterEvents evaluate e ((arguments d).events evaluate e) = between at hlast ⊢
      have hcall : (Plan.done ((), f) >>= fun u : Unit × Cursor =>
          Plan.call name callee values u.2.pos fun value => .done (value, u.2)) =
          .call name callee values f.pos fun value => .done (value, f) := rfl
      rw [hcall, Plan.perform, Plan.events]
      rcases hresult : callee.run evaluate name values between with ⟨failure | value, later⟩
      · exact ⟨rfl, .call .nil hm hbalanced (congrArg Prod.fst hresult), f.pos, hlast⟩
      · exact ⟨rfl, h.ahead.trans hahead, .call hm hbalanced .nil, hlast⟩

theorem planned_scanValue (hc : c.InText) (h : c.startsNumber = true) :
    CarriesOut evaluate c e ((literal : Script Float) c) ((literal : Parse Float) ⟨c, e⟩) := by
  have hscan : (literal : Script Float) c = .done ((Numeral.scan c.rest).1.toFloat,
      c.forward (Numeral.scan c.rest).1.text.length) := by
    change Script.literal c = _
    rw [Script.literal, scanNumber_eq h]
  have hmarked : (Numeral.scan c.rest).1.hasDigitOrPoint = true := by
    cases hrest : c.rest with
    | nil => simp [Cursor.startsNumber, Cursor.current, hrest] at h
    | cons ch tail =>
      refine Cursor.hasDigitOrPoint_scan ?_ tail
      simpa [Cursor.startsNumber, Cursor.current, hrest] using h
  have happ := Numeral.text_append_scan c.rest
  have hahead : c.Ahead (c.forward (Numeral.scan c.rest).1.text.length) := by
    refine Cursor.ahead_forward hc ?_
    rw [← congrArg List.length happ, List.length_append]
    omega
  have hread : Reads [.number ⟨_, wellFormed_scan c.rest, hmarked⟩] c.rest
      (c.forward (Numeral.scan c.rest).1.text.length).rest := by
    have hdrop : c.rest.drop (Numeral.scan c.rest).1.text.length = (Numeral.scan c.rest).2 := by
      conv => lhs; arg 2; rw [← happ]
      rw [List.drop_left]
    have htoken := Reads.token (t := .number ⟨_, wellFormed_scan c.rest, hmarked⟩)
      (longest_scan c.rest) (.nil _)
    rw [Cursor.forward, hdrop]
    rwa [Token.text, happ] at htoken
  rw [hscan, literal_eq h]
  exact ⟨rfl, hahead, .nil, .none (hahead.nameless hc (by simp [Token.name?]) hread)⟩

theorem literalOrFail_planned : Planned evaluate literalOrFail literalOrFail := by
  intro c e hc
  cases hstarts : c.startsNumber with
  | false =>
    have hscript : (literalOrFail : Script Float) c = (failAt .unexpected : Script Float) c := by
      change (if c.startsNumber = true then (literal : Script Float) else failAt .unexpected) c = _
      rw [hstarts]
      rfl
    rw [hscript, literalOrFail_fail hstarts]
    exact planned_unexpected c e hc
  | true =>
    have hscript : (literalOrFail : Script Float) c = (literal : Script Float) c := by
      change (if c.startsNumber = true then (literal : Script Float) else failAt .unexpected) c = _
      rw [hstarts]
      rfl
    rw [hscript, literalOrFail_literal hstarts]
    exact planned_scanValue hc hstarts

/-- The way to the start of a run belongs to it, if it leads over no name. -/
theorem CarriesOut.of_nameless {plan : Plan (α × Cursor)} {r : EStateM.Result Halt State α}
    (hahead : c.Ahead d) (hn : Cursor.Nameless c.text c.pos d.pos)
    (h : CarriesOut evaluate d e plan r) : CarriesOut evaluate c e plan r := by
  refine ⟨h.seen, ?_⟩
  have hproper := h.proper
  rcases hresult : (plan.perform evaluate e).1 with ending | ⟨a, f⟩
  · rw [hresult] at hproper
    obtain ⟨hbroken, last, hcourse⟩ := hproper
    exact ⟨hbroken, last, hcourse.of_nameless hahead.text_eq hn⟩
  · rw [hresult] at hproper
    obtain ⟨hahead', hbalanced, hcourse⟩ := hproper
    exact ⟨hahead.trans hahead', hbalanced, hcourse.of_nameless hahead.text_eq hn⟩

/-- A name is looked up where it is scanned, and called on the arguments behind it if it is a
function. -/
theorem Named.carriesOut (h : Named c d name) (ha : Planned evaluate arguments run)
    (hread : ∀ values s, run ⟨d, e⟩ = .ok values s → ArgumentsAt d.text d.pos s.cursor.pos) :
    CarriesOut evaluate c e (.scan name c.pos ((resolve () arguments name c.pos : Script Float) d))
      (resolve evaluate run name c.pos ⟨d, e⟩) := by
  have hlast : Course evaluate c e d.pos
      [.scanned name c.pos, .looked name c.pos (e.bindings.meaning name)] :=
    h.course (.none (Cursor.nameless_refl ..))
  rw [script_resolve]
  rcases meaning_callee_cases (e.bindings.meaning name) with
    ⟨hnone, x, hx⟩ | ⟨callee, hcallee, hfunction⟩ | hunknown
  · have hproceed : proceed arguments name c.pos (e.bindings.meaning name) d = .done (x, d) := by
      simp only [proceed, hnone, hx]
    rw [resolve_held (s := ⟨_, e⟩) hx]
    refine ⟨?_, ?_⟩
    · simp only [Plan.perform, hproceed]
      rfl
    · simp only [Plan.perform, Plan.events, hproceed]
      exact ⟨h.ahead, .value hx .nil, hlast⟩
  · rw [resolve_function (s := ⟨_, e⟩) hfunction]
    exact h.carriesOut_call ha hcallee hread
  · have hproceed : proceed arguments name c.pos (e.bindings.meaning name) d =
        .stop (.rejected (.unknownName name c.pos)) := by
      rw [hunknown]
      rfl
    rw [resolve_unknown (s := ⟨_, e⟩) hunknown]
    refine ⟨?_, ?_⟩
    · simp only [Plan.perform, hproceed]
      rfl
    · simp only [Plan.perform, Plan.events, hproceed]
      rw [hunknown] at hlast ⊢
      exact ⟨.unknown .nil, d.pos, hlast⟩

theorem operand_planned (ha : Planned evaluate arguments run)
    (hread : ∀ c e values s, c.InText → run ⟨c, e⟩ = .ok values s →
      ArgumentsAt c.text c.pos s.cursor.pos) :
    Planned evaluate (operand () arguments) (operand evaluate run) := by
  intro c e hc
  have hskip := Cursor.ahead_skipBlanks hc
  refine CarriesOut.of_nameless hskip (Cursor.skims_skipBlanks.nameless c hc) ?_
  cases hn : Cursor.nameOf c.skipBlanks.rest with
  | none =>
    rw [script_operand_unnamed hn, operand_unnamed hn]
    exact literalOrFail_planned c.skipBlanks e hskip.inText
  | some text =>
    have hahead := Cursor.ahead_forward hskip.inText (Cursor.nameOf_length_le hn)
    have hnamed : Named c.skipBlanks (c.skipBlanks.forward text.length) (String.ofList text) :=
      ⟨hahead, nameAt_of_nameOf hskip.inText.sound hn, by simp [Cursor.forward]⟩
    rw [script_operand_name hn, operand_name hn]
    exact hnamed.carriesOut ha fun values s hrun => hread _ e values s hahead.inText hrun

end Names

/-- Where the arguments of a call have been read, they stand. -/
theorem argumentsAt_of_argumentsOf {bound : Nat} {values : List Float} {s : State}
    (hc : c.InText) (h : argumentsOf (factor evaluate bound) bound ⟨c, e⟩ = .ok values s) :
    ArgumentsAt c.text c.pos s.cursor.pos := by
  have hstate : (⟨c, e⟩ : State) = .facing c.text c.rest e := State.eq_facing hc.eq_facing
  rw [hstate] at h
  obtain ⟨more, after, rfl, hread⟩ := argumentsOf_sound (factor_sound bound) hc.suffix.length_le h
  have hsuffix : more <:+ c.rest := by
    obtain ⟨_, -, hread, -⟩ | ⟨_, _, -, -, -, hread, -⟩ := hread <;>
    · obtain ⟨front, hfront⟩ := hread.exists_append
      exact ⟨front, hfront.symm⟩
  have hdrop : c.text.drop (State.facing c.text more after).cursor.pos = more :=
    (Cursor.inText_facing (hsuffix.trans hc.suffix)).drop_pos
  rw [ArgumentsAt, hc.drop_pos, hdrop]
  obtain ⟨arguments, hw, hread, -⟩ | ⟨argument, -, -, hw, hgroup, hread, -⟩ := hread
  · exact .inl ⟨arguments, hw, hread⟩
  · exact .inr ⟨argument, hw, hgroup, hread⟩

theorem factor_planned (bound : Nat) :
    Planned evaluate (factorWithin () bound) (factor evaluate bound) :=
  (planned evaluate).factorWithin close_planned (fun bound hi =>
    operand_planned ((planned evaluate).argumentsOf hi bound close_planned)
      fun _ _ _ _ hc hrun => argumentsAt_of_argumentsOf hc hrun) bound

theorem script_planned (evaluate : Evaluator) (bound : Nat) :
    Planned evaluate (script bound) (whole evaluate bound) :=
  (planned evaluate).wholeOf ((planned evaluate).expressionOf (factor_planned bound) bound)
    planned_unexpected

/-- A text that is evaluated to a value has been read to its end. -/
theorem pos_eq_of_whole {bound : Nat} {value : Float} {s : State} (hc : s.cursor.InText)
    (h : whole evaluate bound ⟨c, e⟩ = .ok value s) : s.cursor.pos = s.cursor.text.length := by
  obtain ⟨x, between, -, hrest⟩ := bind_eq_ok.mp h
  obtain ⟨ends, s', hends, hdone⟩ := bind_eq_ok.mp hrest
  obtain ⟨rfl, rfl⟩ := EStateM.Result.ok.inj hends
  cases hend : between.cursor.atEnd with
  | false =>
    simp only [hend, Bool.false_eq_true, if_false] at hdone
    cases hdone
  | true =>
    simp only [hend, if_true] at hdone
    cases hdone
    have hlength := hc.length_rest
    rw [Cursor.atEnd, List.isEmpty_iff] at hend
    simpa [hend] using hlength

section Whole
variable {expression : String} (h : expression ≠ "")
include h

theorem planOf_eq :
    planOf expression =
      script (boundFor expression.toList) (.ofText expression.toList) >>= fun r => .done r.1 := by
  have hfalse : expression.isEmpty = false := by simpa using h
  simp only [planOf, hfalse, Bool.false_eq_true, if_false]
  rfl

theorem planOf_perform :
    (planOf expression).perform evaluate e =
      (((script (boundFor expression.toList) (.ofText expression.toList)).perform evaluate e).1.map
          Prod.fst,
        ((script (boundFor expression.toList) (.ofText expression.toList)).perform evaluate e).2) := by
  rw [planOf_eq h, Plan.perform_bind]
  rcases (script (boundFor expression.toList) (.ofText expression.toList)).perform evaluate e with
    ⟨ending | r, after⟩ <;> rfl

theorem planOf_events :
    (planOf expression).events evaluate e =
      (script (boundFor expression.toList) (.ofText expression.toList)).events evaluate e := by
  rw [planOf_eq h, Plan.events_bind]
  rcases (script (boundFor expression.toList) (.ofText expression.toList)).perform evaluate e with
    ⟨ending | r, after⟩ <;> exact List.append_nil _

/-- The plan of an expression is read from its start on, and to its end if it comes to a value. -/
theorem planOf_course (evaluate : Evaluator) (e : Environment) :
    ∃ last, Course evaluate (.ofText expression.toList) e last
        ((planOf expression).events evaluate e) ∧
      ∀ value, ((planOf expression).perform evaluate e).1 = .ok value →
        last = expression.toList.length := by
  have hstart := Cursor.inText_ofText expression.toList
  obtain ⟨hseen, hproper⟩ := script_planned evaluate (boundFor expression.toList)
    (.ofText expression.toList) e hstart
  rw [planOf_events h, planOf_perform h]
  rcases hplan : (script (boundFor expression.toList) (.ofText expression.toList)).perform evaluate e
    with ⟨ending | ⟨value, d⟩, after⟩
  · rw [hplan] at hproper
    obtain ⟨-, last, hcourse⟩ := hproper
    exact ⟨last, hcourse, fun value hvalue => by cases hvalue⟩
  · rw [hplan] at hseen hproper
    obtain ⟨hahead, -, hcourse⟩ := hproper
    have hend := pos_eq_of_whole (s := ⟨d, after⟩) hahead.inText (eq_ok_of_seen hseen)
    exact ⟨d.pos, hcourse, fun _ _ => hend.trans (congrArg List.length hahead.text_eq)⟩

/-- A plan that ends without a value is broken off where it ends. -/
theorem planOf_broken {ending : Ending}
    (hending : ((planOf expression).perform evaluate e).1 = .error ending) :
    Broken evaluate ending ((planOf expression).events evaluate e) := by
  have hproper := (script_planned evaluate (boundFor expression.toList)
    (.ofText expression.toList) e (Cursor.inText_ofText expression.toList)).proper
  rw [planOf_perform h] at hending
  rw [planOf_events h]
  rcases hplan : (script (boundFor expression.toList) (.ofText expression.toList)).perform evaluate e
    with ⟨other | r, after⟩
  · rw [hplan] at hending hproper
    obtain rfl := Except.error.inj hending
    exact hproper.1
  · rw [hplan] at hending
    cases hending

/-- An expression is stopped for what stands in it alone. -/
theorem planOf_stopped {reason : Stop}
    (hending : ((planOf expression).perform evaluate e).1 = .error (.stopped reason)) :
    ∃ rejection, reason = .rejected rejection := by
  obtain hrejected | rfl := (planOf_broken h hending).stop_cases
  · exact hrejected
  · have hseen := (script_planned evaluate (boundFor expression.toList)
      (.ofText expression.toList) e (Cursor.inText_ofText expression.toList)).seen
    obtain ⟨outcome, s, hrun⟩ := whole_stopped evaluate expression.toList e
    rw [planOf_perform h] at hending
    rcases hplan : (script (boundFor expression.toList) (.ofText expression.toList)).perform evaluate e
      with ⟨ending | r, after⟩
    · rw [hplan] at hending hseen
      obtain rfl := Except.error.inj hending
      obtain ⟨s', hexhausted, -⟩ := eq_error_of_seen hseen
      rw [State.facing, ← Cursor.ofText_eq] at hrun
      cases outcome <;> cases hexhausted.symm.trans hrun
    · rw [hplan] at hending
      cases hending

theorem evaluateText_planOf (evaluate : Evaluator) (e : Environment) :
    evaluateText evaluate expression.toList e = (planOf expression).outcome evaluate e := by
  have hseen := (script_planned evaluate (boundFor expression.toList)
    (.ofText expression.toList) e (Cursor.inText_ofText expression.toList)).seen
  have houtcome : evaluateText evaluate expression.toList e =
      outcomeOf (whole evaluate (boundFor expression.toList) ⟨.ofText expression.toList, e⟩) := rfl
  rw [houtcome, Plan.outcome, planOf_perform h]
  rcases hplan : (script (boundFor expression.toList) (.ofText expression.toList)).perform evaluate e
    with ⟨ending | ⟨value, d⟩, after⟩
  · rw [hplan] at hseen
    obtain ⟨s, hrun, rfl⟩ := eq_error_of_seen hseen
    rw [hrun]
    rfl
  · rw [hplan] at hseen
    rw [eq_ok_of_seen hseen]
    rfl

end Whole

end Expression

open Expression

/-- What an evaluation comes to is the outcome of its plan, rounded. -/
theorem evaluateWith_planOf (inner : Evaluator) (precision : Precision) (expression : String)
    (e : Environment) :
    evaluateWith inner precision expression e =
      (((planOf expression).outcome inner e).1.bind fun value =>
        (precision.round value).mapError .breakdown, ((planOf expression).outcome inner e).2) := by
  by_cases hempty : expression = ""
  · subst hempty
    rfl
  · have hfalse : expression.isEmpty = false := by simpa using hempty
    simp only [evaluateWith, hfalse, Bool.false_eq_true, if_false, evaluateText_planOf hempty]

/-- Whatever callbacks do to the bindings, an evaluation looks every name up when it scans it. It
carries out the plan of its expression. There each name that is scanned is looked up next, under the
bindings that exactly the calls before it have left; the names are scanned in their order in the
text, up to its end if there is a value; and every call, right behind its arguments, checks the
arity and runs the callback of the function that was found in front of them. -/
theorem evaluateWith_planned (inner : Evaluator) (precision : Precision) (expression : String)
    (e : Environment) :
    let plan := planOf expression
    let events := plan.events inner e
    evaluateWith inner precision expression e =
        ((plan.outcome inner e).1.bind fun value => (precision.round value).mapError .breakdown,
          afterEvents inner e events) ∧
      Timely inner e events ∧
      Answered expression.toList events ∧
      (∀ name expected actual, (plan.perform inner e).1 =
          .error (.stopped (.rejected (.argumentCount name expected actual))) →
        ∃ callee start arguments, Waiting callee name start events ∧
          callee.takes arguments = false ∧
          callee.refusal name arguments = .argumentCount name expected actual) ∧
      ∃ last, InOrder expression.toList 0 last events ∧
        ∀ value, (plan.perform inner e).1 = .ok value → last = expression.toList.length := by
  intro plan events
  have houtcome := evaluateWith_planOf inner precision expression e
  rw [show ((planOf expression).outcome inner e).2 = _ from Plan.perform_environment ..] at houtcome
  refine ⟨houtcome, ?_⟩
  by_cases hempty : expression = ""
  · subst hempty
    refine ⟨timely_nil, answered_nil, ?_, 0, .nil (Cursor.nameless_refl ..), ?_⟩
    · intro name expected actual h
      cases h
    · intro value h
      cases h
  · obtain ⟨last, hcourse, hlast⟩ := planOf_course hempty inner e
    exact ⟨hcourse.prompt.timely, hcourse.answered, fun name expected actual h =>
      (planOf_broken hempty h).waiting_of_refused, last, hcourse.inOrder, hlast⟩

/-- A function that is removed in its own argument still has its arity checked. -/
theorem evaluateWith_planned_removed :
    let inner : Evaluator := fun _ e => (.ok 0.0, e)
    let e : Environment := ⟨(Bindings.empty.setFunction "f" ⟨Callback.sum, some 2⟩).setFunction
      "drop" ⟨Callback.removingFunction "f", some 1⟩, []⟩
    ((evaluateWith inner .exact "f(drop(1))" e).2.bindings.functions.get? "f").isNone = true ∧
      ∃ callee start arguments,
        Waiting callee "f" start ((planOf "f(drop(1))").events inner e) ∧
          callee.takes arguments = false ∧
          callee.refusal "f" arguments = .argumentCount "f" (some 2) 1 := by
  intro inner e
  obtain ⟨-, -, -, hrefused, -⟩ := evaluateWith_planned inner .exact "f(drop(1))" e
  have hstops : (match ((planOf "f(drop(1))").perform inner e).1 with
      | .error (.stopped (.rejected rejection)) =>
        decide (rejection = .argumentCount "f" (some 2) 1)
      | _ => false) = true := by decide +kernel
  refine ⟨by decide +kernel, hrefused "f" (some 2) 1 ?_⟩
  split at hstops
  next rejection hstop => rw [hstop, of_decide_eq_true hstops]
  next => cases hstops

/-- It is also still called, and not found a second time. -/
example :
    (evaluateWith (evaluateWithin .exact 0) .exact "f(drop(1))+f(2)"
      ⟨(Bindings.empty.setFunction "f" ⟨Callback.sum, some 1⟩).setFunction "drop"
        ⟨Callback.removingFunction "f", some 1⟩, []⟩).2.calls.map Call.name = ["drop", "f"] := by
  decide +kernel

end Reckon
