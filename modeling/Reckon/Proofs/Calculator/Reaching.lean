import Reckon.Proofs.Calculator.Trace

/-!
# Failures through callbacks

A callback may evaluate expressions, whose callbacks may do so again. If none of them catches a
failure, then whatever is raised anywhere in this nesting ends the whole evaluation, and reaches the
outside as a fault of at most one function: the innermost one that was active where it was raised.
-/
namespace Reckon
open Expression Grammar

/-- An action that hands on the failures of all evaluations in it, and defines only functions that
do so. -/
def Action.CatchesNothing : Action → Prop
  | .give _ => True
  | .fail _ => True
  | .evaluate _ next =>
    (∀ failure, next (.error failure) = .fail failure) ∧ ∀ value, (next (.ok value)).CatchesNothing
  | .edit _ next => next.CatchesNothing
  | .define _ callback _ next =>
    (∀ arguments, (callback arguments).CatchesNothing) ∧ next.CatchesNothing

def CustomFunction.CatchesNothing (function : CustomFunction) : Prop :=
  ∀ arguments, (function.callback arguments).CatchesNothing

namespace Bindings

/-- All custom functions catch nothing. -/
def CatchNothing (b : Bindings) : Prop :=
  ∀ name function, b.functions.get? name = some function → function.CatchesNothing

variable {b : Bindings}

theorem catchNothing_empty : Bindings.empty.CatchNothing := by
  intro name function hget
  cases hget

theorem CatchNothing.apply (h : b.CatchNothing) (e : Edit) : (b.apply e).CatchNothing := by
  cases e with
  | setVariable _ _ => exact h
  | removeVariable _ => exact h
  | removeFunction name =>
    intro other function hget
    simp only [Bindings.apply, removeFunction, Table.get?_erase] at hget
    split at hget
    · cases hget
    · exact h other function hget

theorem CatchNothing.setFunction (h : b.CatchNothing) (name : String) (function : CustomFunction)
    (hf : function.CatchesNothing) : (b.setFunction name function).CatchNothing := by
  intro other found hget
  simp only [Bindings.setFunction, Table.get?_put] at hget
  split at hget
  · obtain rfl := Option.some.inj hget
    exact hf
  · exact h other found hget

theorem CatchNothing.resolved (h : b.CatchNothing) {name : String} {function : CustomFunction}
    (hf : resolved b name = .custom function) : function.CatchesNothing := by
  rw [resolved_eq_meaning] at hf
  exact h name function (get?_of_meaning hf)

end Bindings

namespace Plan
variable {α β : Type} {P : CustomFunction → Prop}

/-- The plan calls custom functions only with the property, if it finds only such ones. -/
def CallsOnly (P : CustomFunction → Prop) : Plan α → Prop
  | .done _ => True
  | .stop _ => True
  | .scan _ _ next => next.CallsOnly P
  | .look _ _ next =>
    ∀ meaning, (∀ function, meaning = .custom function → P function) → (next meaning).CallsOnly P
  | .call _ callee _ _ next =>
    (∀ function, callee = .custom function → P function) ∧ ∀ value, (next value).CallsOnly P

theorem CallsOnly.bind {plan : Plan α} {f : α → Plan β} (h : plan.CallsOnly P)
    (hf : ∀ a, (f a).CallsOnly P) : (plan >>= f).CallsOnly P := by
  change (plan.bind f).CallsOnly P
  induction plan with
  | done result => exact hf result
  | stop reason => trivial
  | scan name start next ih => exact ih h
  | look name start next ih => exact fun meaning hm => ih meaning (h meaning hm)
  | call name callee arguments place next ih => exact ⟨h.1, fun value => ih value (h.2 value)⟩

end Plan

namespace Expression
variable {α β : Type} {P : CustomFunction → Prop}

/-- A script whose plans call only functions with the property. -/
def CallsOnly (P : CustomFunction → Prop) (script : Script α) : Prop :=
  ∀ c, (script c).CallsOnly P

theorem CallsOnly.bind {script : Script α} {next : α → Script β} (h : CallsOnly P script)
    (hnext : ∀ a, CallsOnly P (next a)) : CallsOnly P (script >>= next) :=
  fun c => (h c).bind fun r => hnext r.1 r.2

theorem callsOnly (P : CustomFunction → Prop) :
    Simulation fun α (script other : Script α) => script = other ∧ CallsOnly P script where
  pure _ := ⟨rfl, fun _ => trivial⟩
  bind h hnext := ⟨by rw [h.1, funext fun a => (hnext a).1], h.2.bind fun a => (hnext a).2⟩
  onCursor _ := ⟨rfl, fun _ => trivial⟩
  exhausted := ⟨rfl, fun _ => trivial⟩

theorem close_callsOnly : CallsOnly P (close : Script Unit) :=
  CallsOnly.bind (fun _ => trivial) fun found c => by
    cases found <;> trivial

theorem literalOrFail_callsOnly : CallsOnly P (literalOrFail : Script Float) :=
  CallsOnly.bind (fun _ => trivial) fun starts c => by
    cases starts with
    | false => trivial
    | true =>
      change (Script.literal c).CallsOnly P
      rw [Script.literal]
      split <;> trivial

/-- A function that a name stands for is called behind its arguments. -/
theorem proceed_callsOnly {arguments : Script (List Float)} (h : CallsOnly P arguments)
    {meaning : Meaning} (hm : ∀ function, meaning = .custom function → P function) (name : String)
    (start : Nat) : CallsOnly P (proceed arguments name start meaning) := by
  intro c
  rcases hcallee : meaning.callee? with _ | callee
  · simp only [proceed, hcallee]
    split <;> trivial
  · have hcall : CallsOnly P (thenCall arguments name callee) := by
      refine h.bind fun values => CallsOnly.bind (fun d => ?_) fun _ d => ⟨?_, fun _ => trivial⟩
      · rw [script_requireArity]
        split <;> trivial
      · rintro function rfl
        exact hm function (Meaning.eq_custom_of_callee? hcallee)
    simp only [proceed, hcallee]
    exact hcall c

theorem operand_callsOnly {arguments : Script (List Float)} (h : CallsOnly P arguments) :
    CallsOnly P (operand () arguments) := by
  intro c
  cases hn : Cursor.nameOf c.skipBlanks.rest with
  | none =>
    rw [script_operand_unnamed hn]
    exact literalOrFail_callsOnly _
  | some text =>
    rw [script_operand_name hn, script_resolve]
    exact fun meaning hm => proceed_callsOnly h hm _ _ _

end Expression

/-- An expression calls only functions that it has looked up. -/
theorem planOf_callsOnly (P : CustomFunction → Prop) (expression : String) :
    (planOf expression).CallsOnly P := by
  have hfactor (bound : Nat) : CallsOnly P (factorWithin () bound : Script Float) :=
    ((callsOnly P).factorWithin ⟨rfl, close_callsOnly⟩ (fun bound hi =>
      have harguments := (callsOnly P).argumentsOf hi bound ⟨rfl, close_callsOnly⟩
      ⟨rfl, operand_callsOnly harguments.2⟩) bound).2
  have hscript : CallsOnly P (script (boundFor expression.toList)) :=
    ((callsOnly P).wholeOf ((callsOnly P).expressionOf ⟨rfl, hfactor _⟩ _)
      ⟨rfl, fun _ => trivial⟩).2
  rw [planOf]
  split
  · trivial
  · exact (hscript _).bind fun _ => trivial

namespace Trace

/-- The failure that a trace ends with, if it does. -/
def failures (t : Trace) : List Raised :=
  match t.result with
  | .ok _ => []
  | .error raised => [raised]

/-- Nothing was caught in the trace, and nothing will be. -/
structure Uncaught (t : Trace) : Prop where
  raised : t.raised = t.failures
  bindings : t.after.bindings.CatchNothing

variable {t next : Trace} {e : Environment}

theorem uncaught_done (h : e.bindings.CatchNothing) (result : Except Failure Float) :
    (done result e).Uncaught := by
  cases result <;> exact ⟨rfl, h⟩

theorem Uncaught.noting (h : t.Uncaught) (deed : Deed) : (t.noting deed).Uncaught :=
  ⟨h.raised, h.bindings⟩

theorem Uncaught.within (h : t.Uncaught) (name : String) : (t.within name).Uncaught := by
  refine ⟨?_, h.bindings⟩
  have hraised := h.raised
  simp only [Trace.within, failures] at hraised ⊢
  cases hresult : t.result <;> simp [hresult, hraised, Except.mapError]

/-- Where there is a value, nothing has been raised before. -/
theorem Uncaught.followedBy {value : Float} (h : t.Uncaught) (hvalue : t.result = .ok value)
    (hnext : next.Uncaught) : (t.followedBy next).Uncaught := by
  refine ⟨?_, hnext.bindings⟩
  have hnone : t.raised = [] := by rw [h.raised, failures, hvalue]
  simp only [Trace.followedBy, failures, hnone, List.nil_append]
  exact hnext.raised

theorem Uncaught.andThen {next : Float → Environment → Trace} (h : t.Uncaught)
    (hnext : ∀ value after, after.bindings.CatchNothing → (next value after).Uncaught) :
    (t.andThen next).Uncaught := by
  rw [Trace.andThen]
  split
  · exact h
  next value hvalue => exact h.followedBy hvalue (hnext value _ h.bindings)

end Trace

section Uncaught
variable {tracer : Tracer}
  (h : ∀ expression (e : Environment), e.bindings.CatchNothing → (tracer expression e).Uncaught)
  {e : Environment}
include h

theorem Action.trace_uncaught (maker : Call) {action : Action} (ha : action.CatchesNothing)
    (he : e.bindings.CatchNothing) : (action.trace tracer maker e).Uncaught := by
  induction action generalizing e with
  | give result => exact Trace.uncaught_done he _
  | fail failure => exact Trace.uncaught_done he _
  | evaluate expression next ih =>
    obtain ⟨herror, hok⟩ := ha
    have hinner := h expression e he
    simp only [Action.trace]
    split
    next value hvalue => exact hinner.followedBy hvalue (ih _ (hok value) hinner.bindings)
    next raised _ =>
      -- a failure that is handed on is not raised a second time
      rw [herror, if_pos (Action.handsOn_fail _)]
      exact hinner
  | edit change next ih => exact (ih ha (he.apply change)).noting _
  | define name callback arity next _ ih =>
    exact (ih ha.2 (he.setFunction name ⟨callback, arity⟩ ha.1)).noting _

theorem Callee.trace_uncaught {callee : Callee}
    (hc : ∀ function, callee = .custom function → function.CatchesNothing)
    (he : e.bindings.CatchNothing) (name : String) (arguments : List Float) :
    (callee.trace tracer name arguments e).Uncaught := by
  cases callee with
  | builtin function => exact Trace.uncaught_done he _
  | custom function =>
    have haction := Action.trace_uncaught h ⟨name, function, arguments⟩ (hc function rfl arguments)
      (e := e.record ⟨name, function, arguments⟩) he
    exact (haction.within name).noting _

theorem Plan.trace_uncaught {plan : Plan Float}
    (hp : plan.CallsOnly CustomFunction.CatchesNothing) (he : e.bindings.CatchNothing) :
    (plan.trace tracer e).Uncaught := by
  induction plan generalizing e with
  | done value => exact Trace.uncaught_done he _
  | stop reason => exact Trace.uncaught_done he _
  | scan name start next ih => exact ih hp he
  | look name start next ih => exact ih _ (hp _ fun _ => he.resolved) he
  | call name callee arguments place next ih =>
    exact (Callee.trace_uncaught h hp.1 he name arguments).andThen fun value _ hafter =>
      ih value (hp.2 value) hafter

theorem tracedWith_uncaught (precision : Precision) (expression : String)
    (he : e.bindings.CatchNothing) : (tracedWith tracer precision expression e).Uncaught :=
  (Plan.trace_uncaught h (planOf_callsOnly _ expression) he).andThen fun _ _ hafter =>
    Trace.uncaught_done hafter _

end Uncaught

theorem traced_uncaught (precision : Precision) (depth : Nat) (expression : String)
    {e : Environment} (he : e.bindings.CatchNothing) :
    (traced precision depth expression e).Uncaught := by
  induction depth generalizing expression e with
  | zero =>
    exact tracedWith_uncaught (fun _ _ he => Trace.uncaught_done he _) precision expression he
  | succ depth ih =>
    exact tracedWith_uncaught (fun expression _ => ih expression) precision expression he

/-- Failures in nested callbacks are wrapped exactly once: what an evaluation fails with is what was
raised, as a fault of the innermost function that was active there. If the callbacks catch nothing,
then this is the only failure that was raised at all. -/
theorem evaluateWithin_reaching (precision : Precision) (depth : Nat) (expression : String)
    (e : Environment) :
    let t := traced precision depth expression e
    evaluateWithin precision depth expression e = (t.result.mapError Raised.reaching, t.after) ∧
      (e.bindings.CatchNothing → t.raised = t.failures) :=
  ⟨(traced_outcome precision depth expression e).symm, fun he =>
    (traced_uncaught precision depth expression he).raised⟩

/-- The innermost function is the one that the expression in the callback calls. -/
theorem evaluateWithin_reaching_nested :
    let g : CustomFunction := ⟨Callback.failing (.breakdown .divisionByZero), some 1⟩
    let f : CustomFunction := ⟨Callback.evaluation "g 1", some 1⟩
    let e : Environment := ⟨(Bindings.empty.setFunction "g" g).setFunction "f" f, []⟩
    (evaluateWithin .exact 1 "f 1" e).1 = .error (.fault (.call "g" .divisionByZero)) ∧
      (traced .exact 1 "f 1" e).raised = [⟨.breakdown .divisionByZero, ["g", "f"]⟩] := by
  intro g f e
  have hcatch : e.bindings.CatchNothing :=
    (Bindings.catchNothing_empty.setFunction "g" g fun _ => trivial).setFunction "f" f
      fun _ => ⟨fun _ => rfl, fun _ => trivial⟩
  obtain ⟨houtcome, hraised⟩ := evaluateWithin_reaching .exact 1 "f 1" e
  have hdeep : (traced .exact 1 "f 1" e).raised =
      [⟨.breakdown .divisionByZero, ["g", "f"]⟩] := by decide +kernel
  refine ⟨?_, hdeep⟩
  have hfailures := (hraised hcatch).symm.trans hdeep
  simp only [Trace.failures] at hfailures
  split at hfailures
  · cases hfailures
  next raised hresult =>
    obtain rfl := List.singleton_inj.mp hfailures
    rw [houtcome, hresult]
    rfl

/-- A function is not active yet while its arguments are read. -/
example :
    (traced .exact 0 "f(g 1)" ⟨(Bindings.empty.setFunction "g"
      ⟨Callback.failing (.breakdown .divisionByZero), some 1⟩).setFunction "f"
        ⟨Callback.sum, some 1⟩, []⟩).raised = [⟨.breakdown .divisionByZero, ["g"]⟩] := by
  decide +kernel

end Reckon
