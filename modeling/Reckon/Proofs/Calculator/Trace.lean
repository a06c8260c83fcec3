import Reckon.Proofs.Expression.Binding

/-!
# What happens during an evaluation

A trace carries out the plan of an expression, and follows it into its callbacks and into the
evaluations that these start. It notes the calls and the changes of the tables in their order, and
for a failure which custom functions are active where it is raised. No call in a trace wraps a
failure: what reaches the outside is read off at the end, and is what the evaluation fails with.
-/
namespace Reckon
open Expression Grammar

/-- A change of the tables by a callback. -/
inductive Change where
  | edit (e : Edit)
  | define (name : String) (function : CustomFunction)

/-- What happens to an environment during an evaluation: calls of custom functions, and changes by
their callbacks. -/
inductive Deed where
  | called (call : Call)
  | changed (maker : Call) (change : Change)

/-- A failure as it is raised, and the custom functions that are active there, the innermost first.
A function is active while its callback runs and while its result is converted to a number, but not
while its arguments are read. -/
structure Raised where
  failure : Failure
  active : List String
  deriving DecidableEq, Repr

namespace Raised

/-- The same failure, seen from outside a call that it is raised in. -/
def within (name : String) (raised : Raised) : Raised :=
  { raised with active := raised.active ++ [name] }

/-- A fault reaches the outside as it is. A breakdown becomes a fault of the innermost function that
is active where it is raised, if there is one. -/
def reaching : Raised → Failure
  | ⟨.fault f, _⟩ => .fault f
  | ⟨.breakdown b, []⟩ => .breakdown b
  | ⟨.breakdown b, name :: _⟩ => .fault (.call name b)

@[simp] theorem reaching_raised (failure : Failure) : reaching ⟨failure, []⟩ = failure := by
  cases failure <;> rfl

@[simp] theorem reaching_within (raised : Raised) (name : String) :
    (raised.within name).reaching = raised.reaching.inCall name := by
  obtain ⟨_ | _, _ | _⟩ := raised <;> rfl

end Raised

/-- What happens during an evaluation or a part of it. The failures that are raised include those
that a callback catches. -/
structure Trace where
  result : Except Raised Float
  after : Environment
  deeds : List Deed
  raised : List Raised

/-- How an expression is followed in an environment. -/
abbrev Tracer := String → Environment → Trace

namespace Trace

/-- What is seen of a trace from outside. -/
def outcome (t : Trace) : Outcome := (t.result.mapError Raised.reaching, t.after)

/-- Nothing happens but the end: a failure is raised here. -/
def done (result : Except Failure Float) (e : Environment) : Trace :=
  match result with
  | .ok value => ⟨.ok value, e, [], []⟩
  | .error failure => ⟨.error ⟨failure, []⟩, e, [], [⟨failure, []⟩]⟩

/-- The deed comes first. -/
def noting (t : Trace) (deed : Deed) : Trace := { t with deeds := deed :: t.deeds }

/-- All of it happens in a call. -/
def within (name : String) (t : Trace) : Trace :=
  { t with result := t.result.mapError (Raised.within name)
           raised := t.raised.map (Raised.within name) }

/-- Another trace comes next. -/
def followedBy (t next : Trace) : Trace :=
  ⟨next.result, next.after, t.deeds ++ next.deeds, t.raised ++ next.raised⟩

/-- Goes on with a value, if there is one. -/
def andThen (t : Trace) (next : Float → Environment → Trace) : Trace :=
  match t.result with
  | .error _ => t
  | .ok value => t.followedBy (next value t.after)

end Trace

/-- Whether an action does no more than to fail with this. -/
def Action.handsOn (failure : Failure) : Action → Bool
  | .fail other => other = failure
  | _ => false

/-- Follows the action of a call. A failure of an evaluation that the callback hands on is not
raised again. -/
def Action.trace (tracer : Tracer) (maker : Call) : Action → Environment → Trace
  | .give result, e => .done (result.toFloat.mapError .breakdown) e
  | .fail failure, e => .done (.error failure) e
  | .evaluate expression next, e =>
    let t := tracer expression e
    match t.result with
    | .ok value => t.followedBy ((next (.ok value)).trace tracer maker t.after)
    | .error raised =>
      if (next (.error raised.reaching)).handsOn raised.reaching then t
      else t.followedBy ((next (.error raised.reaching)).trace tracer maker t.after)
  | .edit change next, e =>
    (next.trace tracer maker (e.apply change)).noting (.changed maker (.edit change))
  | .define name callback arity next, e =>
    (next.trace tracer maker (e.define name ⟨callback, arity⟩)).noting
      (.changed maker (.define name ⟨callback, arity⟩))

/-- Follows a call, which makes its function active. -/
def Callee.trace (tracer : Tracer) (name : String) (arguments : List Float) (e : Environment) :
    Callee → Trace
  | .custom function =>
    let call : Call := ⟨name, function, arguments⟩
    (((function.callback arguments).trace tracer call (e.record call)).within name).noting
      (.called call)
  | .builtin function => .done ((function.apply arguments).mapError .breakdown) e

/-- Follows a plan. -/
def Plan.trace (tracer : Tracer) : Plan Float → Environment → Trace
  | .done value, e => .done (.ok value) e
  | .stop reason, e => .done (.error reason.halt.failure) e
  | .scan _ _ next, e => next.trace tracer e
  | .look name _ next, e => (next (resolved e.bindings name)).trace tracer e
  | .call name callee arguments _ next, e =>
    (callee.trace tracer name arguments e).andThen fun value after =>
      (next value).trace tracer after

/-- Follows an expression, `inner` following those that callbacks evaluate. -/
def tracedWith (inner : Tracer) (precision : Precision) : Tracer := fun expression e =>
  ((planOf expression).trace inner e).andThen fun value after =>
    .done ((precision.round value).mapError .breakdown) after

/-- Follows an expression, with evaluations nested in callbacks up to `depth` deep. -/
def traced (precision : Precision) : Nat → Tracer
  | 0 => tracedWith (fun _ e => .done (.error (.breakdown .nestedTooDeep)) e) precision
  | depth + 1 => tracedWith (traced precision depth) precision

namespace Trace

variable {t next : Trace} {e : Environment}

@[simp] theorem outcome_done (result : Except Failure Float) :
    (done result e).outcome = (result, e) := by
  cases result with
  | ok value => rfl
  | error failure => exact Prod.ext (congrArg Except.error (Raised.reaching_raised failure)) rfl

@[simp] theorem outcome_noting (deed : Deed) : (t.noting deed).outcome = t.outcome := rfl

@[simp] theorem outcome_within (name : String) :
    (t.within name).outcome = (t.outcome.1.mapError (Failure.inCall name), t.outcome.2) := by
  obtain ⟨result, after, deeds, raised⟩ := t
  cases result with
  | ok value => rfl
  | error r => exact Prod.ext (congrArg Except.error (r.reaching_within name)) rfl

/-- A trace with a value is not seen but for that. -/
theorem outcome_of_ok {value : Float} (h : t.result = .ok value) :
    t.outcome = (.ok value, t.after) := by
  rw [outcome, h]
  rfl

theorem outcome_of_error {raised : Raised} (h : t.result = .error raised) :
    t.outcome = (.error raised.reaching, t.after) := by
  rw [outcome, h]
  rfl

theorem outcome_andThen {next : Float → Environment → Trace} :
    (t.andThen next).outcome =
      match t.outcome with
      | (.ok value, after) => (next value after).outcome
      | (.error failure, after) => (.error failure, after) := by
  obtain ⟨result, after, deeds, raised⟩ := t
  cases result <;> rfl

end Trace

theorem Action.handsOn_fail (failure : Failure) : (Action.fail failure).handsOn failure = true :=
  decide_eq_true rfl

theorem Action.eq_fail_of_handsOn {failure : Failure} {action : Action}
    (h : action.handsOn failure = true) : action = .fail failure := by
  cases action with
  | fail other => rw [of_decide_eq_true h]
  | _ => cases h

section Outcome
variable {tracer : Tracer} {evaluate : Evaluator}
  (h : ∀ expression e, (tracer expression e).outcome = evaluate expression e)
include h

theorem Action.trace_outcome (maker : Call) (action : Action) (e : Environment) :
    (action.trace tracer maker e).outcome = action.perform evaluate e := by
  induction action generalizing e with
  | give result => exact Trace.outcome_done _
  | fail failure => exact Trace.outcome_done _
  | evaluate expression next ih =>
    simp only [Action.trace, perform, ← h expression e]
    cases hresult : (tracer expression e).result with
    | ok value =>
      rw [Trace.outcome_of_ok hresult]
      exact ih _ _
    | error raised =>
      rw [Trace.outcome_of_error hresult]
      simp only
      split
      next hhands =>
        rw [Action.eq_fail_of_handsOn hhands]
        exact Trace.outcome_of_error hresult
      next => exact ih _ _
  | edit change next ih => exact ih _
  | define name callback arity next _ ih => exact ih _

theorem Callee.trace_outcome (name : String) (callee : Callee) (arguments : List Float)
    (e : Environment) :
    (callee.trace tracer name arguments e).outcome = callee.run evaluate name arguments e := by
  cases callee with
  | builtin function => exact Trace.outcome_done _
  | custom function =>
    rw [Callee.trace, Trace.outcome_noting, Trace.outcome_within, Action.trace_outcome h]
    rfl

theorem Plan.trace_outcome (plan : Plan Float) (e : Environment) :
    (plan.trace tracer e).outcome = plan.outcome evaluate e := by
  induction plan generalizing e with
  | done value => rfl
  | stop reason => exact Trace.outcome_done _
  | scan name start next ih => exact ih e
  | look name start next ih =>
    rw [Plan.trace, resolved_eq_meaning]
    exact ih _ e
  | call name callee arguments place next ih =>
    rw [Plan.trace, Trace.outcome_andThen, Callee.trace_outcome h]
    simp only [Plan.outcome, Plan.perform]
    rcases callee.run evaluate name arguments e with ⟨failure | value, after⟩
    · rfl
    · exact ih value after

theorem tracedWith_outcome (precision : Precision) (expression : String) (e : Environment) :
    (tracedWith tracer precision expression e).outcome =
      evaluateWith evaluate precision expression e := by
  rw [evaluateWith_planOf, tracedWith, Trace.outcome_andThen, Plan.trace_outcome h]
  rcases (planOf expression).outcome evaluate e with ⟨failure | value, after⟩
  · rfl
  · exact Trace.outcome_done _

end Outcome

/-- A trace tells of the evaluation of its expression. -/
theorem traced_outcome (precision : Precision) (depth : Nat) (expression : String)
    (e : Environment) :
    (traced precision depth expression e).outcome =
      evaluateWithin precision depth expression e := by
  induction depth generalizing expression e with
  | zero => exact tracedWith_outcome (fun _ _ => rfl) precision expression e
  | succ depth ih => exact tracedWith_outcome ih precision expression e

end Reckon
