import Reckon.Calculator
import Reckon.Proofs.Expression.Callee
import Reckon.Proofs.Expression.Simulation

/-!
# Plans

A plan is what a text does with the bindings left open: it scans names, looks them up, calls
functions and stops. It is computed by the evaluator itself, in surroundings that note names and
calls down instead of acting on any bindings. What a plan stops with by itself is a fault of the
text, so no failure of a call is ever one of its own.
-/
namespace Reckon

/-- Why a text comes to no value by itself. -/
inductive Stop where
  | empty
  | rejected (rejection : Rejection)
  /-- A literal that is no number. -/
  | unreadable (lexeme : List Char)
  /-- The bound on the depth was too small for the text. -/
  | exhausted

/-- What a run that stops there halts with. -/
def Stop.halt : Stop → Expression.Halt
  | .empty => .failed (.fault .emptyInput)
  | .rejected rejection => .failed (.fault rejection)
  | .unreadable lexeme => .failed (.breakdown (.unreadable (String.ofList lexeme)))
  | .exhausted => .exhausted

/-- What a run does, for all bindings at once. -/
inductive Plan (α : Type) where
  | done (result : α)
  | stop (reason : Stop)
  /-- Scans a name that starts at `start`. -/
  | scan (name : String) (start : Nat) (next : Plan α)
  /-- Looks up a name that was read at `start`, and goes on with its meaning. -/
  | look (name : String) (start : Nat) (next : Meaning → Plan α)
  /-- Calls a function at `place`, behind its arguments, and goes on with its value. A failure of
  the call ends the plan. -/
  | call (name : String) (callee : Callee) (arguments : List Float) (place : Nat)
      (next : Float → Plan α)

/-- How a plan ends that comes to no result. -/
inductive Ending where
  | stopped (reason : Stop)
  /-- A call has failed. -/
  | failed (failure : Failure)

def Ending.halt : Ending → Expression.Halt
  | .stopped reason => reason.halt
  | .failed failure => .failed failure

/-- What happens while a plan is carried out. -/
inductive Event where
  | scanned (name : String) (start : Nat)
  | looked (name : String) (start : Nat) (meaning : Meaning)
  | called (name : String) (callee : Callee) (arguments : List Float) (place : Nat)

variable {α β : Type} {evaluate : Evaluator} {e : Environment}

/-- The environment that an event leaves behind. -/
def Event.effect (evaluate : Evaluator) (e : Environment) : Event → Environment
  | .scanned _ _ => e
  | .looked _ _ _ => e
  | .called name callee arguments _ => (callee.run evaluate name arguments e).2

/-- The environment after some events. Only calls change it. -/
def afterEvents (evaluate : Evaluator) (e : Environment) (events : List Event) : Environment :=
  events.foldl (Event.effect evaluate) e

@[simp] theorem afterEvents_cons (event : Event) (events : List Event) :
    afterEvents evaluate e (event :: events) =
      afterEvents evaluate (event.effect evaluate e) events := rfl

namespace Plan

/-- What a plan comes to, and the environment that it leaves behind. -/
def perform (evaluate : Evaluator) : Plan α → Environment → Except Ending α × Environment
  | .done result, e => (.ok result, e)
  | .stop reason, e => (.error (.stopped reason), e)
  | .scan _ _ next, e => next.perform evaluate e
  | .look name _ next, e => (next (e.bindings.meaning name)).perform evaluate e
  | .call name callee arguments _ next, e =>
    match callee.run evaluate name arguments e with
    | (.ok value, after) => (next value).perform evaluate after
    | (.error failure, after) => (.error (.failed failure), after)

/-- The events of a plan, in order. -/
def events (evaluate : Evaluator) : Plan α → Environment → List Event
  | .done _, _ => []
  | .stop _, _ => []
  | .scan name start next, e => .scanned name start :: next.events evaluate e
  | .look name start next, e =>
    .looked name start (e.bindings.meaning name) ::
      (next (e.bindings.meaning name)).events evaluate e
  | .call name callee arguments place next, e =>
    .called name callee arguments place ::
      match callee.run evaluate name arguments e with
      | (.ok value, after) => (next value).events evaluate after
      | (.error _, _) => []

/-- The outcome of the whole plan of an expression. -/
def outcome (evaluate : Evaluator) (plan : Plan Float) (e : Environment) : Outcome :=
  ((plan.perform evaluate e).1.mapError (·.halt.failure), (plan.perform evaluate e).2)

/-- A plan, and another one on its result. -/
def bind : Plan α → (α → Plan β) → Plan β
  | .done result, f => f result
  | .stop reason, _ => .stop reason
  | .scan name start next, f => .scan name start (next.bind f)
  | .look name start next, f => .look name start fun meaning => (next meaning).bind f
  | .call name callee arguments place next, f =>
    .call name callee arguments place fun value => (next value).bind f

instance : Monad Plan where
  pure := .done
  bind := bind

variable {plan : Plan α} {f : α → Plan β}

/-- Whatever a plan changes, it changes by its calls. -/
theorem perform_environment (plan : Plan α) (evaluate : Evaluator) (e : Environment) :
    (plan.perform evaluate e).2 = afterEvents evaluate e (plan.events evaluate e) := by
  induction plan generalizing e with
  | done result => rfl
  | stop reason => rfl
  | scan name start next ih => exact ih e
  | look name start next ih => exact ih _ e
  | call name callee arguments place next ih =>
    simp only [perform, events, afterEvents_cons, Event.effect]
    rcases callee.run evaluate name arguments e with ⟨result, after⟩
    cases result with
    | error failure => rfl
    | ok value => exact ih value after

theorem perform_bind :
    (plan >>= f).perform evaluate e =
      match plan.perform evaluate e with
      | (.ok a, after) => (f a).perform evaluate after
      | (.error ending, after) => (.error ending, after) := by
  change (plan.bind f).perform evaluate e = _
  induction plan generalizing e with
  | done result => rfl
  | stop reason => rfl
  | scan name start next ih => exact ih
  | look name start next ih => exact ih _
  | call name callee arguments place next ih =>
    simp only [bind, perform]
    rcases callee.run evaluate name arguments e with ⟨result, after⟩
    cases result with
    | error failure => rfl
    | ok value => exact ih value

theorem events_bind :
    (plan >>= f).events evaluate e =
      plan.events evaluate e ++
        match plan.perform evaluate e with
        | (.ok a, after) => (f a).events evaluate after
        | (.error _, _) => [] := by
  change (plan.bind f).events evaluate e = _
  induction plan generalizing e with
  | done result => rfl
  | stop reason => rfl
  | scan name start next ih => exact congrArg _ ih
  | look name start next ih => exact congrArg _ (ih _)
  | call name callee arguments place next ih =>
    simp only [bind, perform, events, List.cons_append]
    rcases callee.run evaluate name arguments e with ⟨result, after⟩
    cases result with
    | error failure => rfl
    | ok value => exact congrArg _ (ih value)

end Plan

/-- A plan that reads on from a cursor. -/
abbrev Script : Type → Type := StateT Cursor Plan

namespace Script

def scanName : Script (Option String) := fun c =>
  match c.scanIdentifier with
  | (none, d) => .done (none, d)
  | (some name, d) => .scan name c.pos (.done (some name, d))

def literal : Script Float := fun c =>
  match c.scanNumber with
  | (.ok value, d) => .done (value, d)
  | (.error lexeme, _) => .stop (.unreadable lexeme)

end Script

namespace Expression

/-- A script scans the text, and leaves what names mean and what calls come to open. -/
instance : Surroundings CustomFunction Unit Script where
  arityOf := CustomFunction.arity
  onCursor operation := fun c => .done (operation c)
  scanName := Script.scanName
  literal := Script.literal
  meaningOf name start := fun c => .look name start fun meaning => .done (meaning, c)
  callCustom _ name function arguments := fun c =>
    .call name (.custom function) arguments c.pos fun value => .done (value, c)
  callBuiltin name function arguments := fun c =>
    .call name (.builtin function) arguments c.pos fun value => .done (value, c)
  reject rejection := fun _ => .stop (.rejected rejection)
  exhausted := fun _ => .stop .exhausted

/-- Reads a whole text. -/
def script (bound : Nat) : Script Float :=
  wholeOf (expressionOf (factorWithin () bound) bound)

end Expression

/-- The plan of an expression. -/
def planOf (expression : String) : Plan Float :=
  if expression.isEmpty then .stop .empty
  else do
    let (value, _) ← Expression.script (Expression.boundFor expression.toList)
      (.ofText expression.toList)
    return value

end Reckon
