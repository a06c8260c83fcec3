import Reckon.Datum
import Reckon.Table

/-!
# Custom functions

A custom function is called with its arguments and answers with an action: a script that may
evaluate further expressions, change the tables it runs under, and ends in a result or a failure.
Actions are plain trees, so whatever a callback can do is one of the steps below.
-/
namespace Reckon

/-- A change of the tables that an expression is evaluated under. -/
inductive Edit where
  | setVariable (name : String) (value : Float)
  | removeVariable (name : String)
  | removeFunction (name : String)
  deriving DecidableEq

/-- What a callback does: its steps in order, and how it ends. -/
inductive Action where
  /-- Hands back a value, which still has to be a number. -/
  | give (result : Datum)
  | fail (failure : Failure)
  /-- Evaluates an expression under the current tables and goes on with what it comes to, be it a
  value or a failure. -/
  | evaluate (expression : String) (next : Except Failure Float → Action)
  | edit (e : Edit) (next : Action)
  /-- Defines or redefines a function. -/
  | define (name : String) (callback : List Float → Action) (arity : Option Nat) (next : Action)

/-- The action that a function takes for its arguments. -/
abbrev Callback := List Float → Action

/-- A custom function and the number of arguments that it takes: one or more, if `none`. -/
structure CustomFunction where
  callback : Callback
  arity : Option Nat

/-- The variables and custom functions that an expression is evaluated under. -/
structure Bindings (φ : Type := CustomFunction) where
  /-- The values of the variables. -/
  numbers : Table Float
  functions : Table φ

namespace Bindings

def empty : Bindings := ⟨.empty, .empty⟩

def setVariable (b : Bindings) (name : String) (value : Float) : Bindings :=
  { b with numbers := b.numbers.put name value }

def removeVariable (b : Bindings) (name : String) : Bindings :=
  { b with numbers := b.numbers.erase name }

def setFunction (b : Bindings) (name : String) (function : CustomFunction) : Bindings :=
  { b with functions := b.functions.put name function }

def removeFunction (b : Bindings) (name : String) : Bindings :=
  { b with functions := b.functions.erase name }

/-- The bindings after an edit. -/
def apply (b : Bindings) : Edit → Bindings
  | .setVariable name value => b.setVariable name value
  | .removeVariable name => b.removeVariable name
  | .removeFunction name => b.removeFunction name

end Bindings

/-- A call of a custom function: the function that the name was bound to, and its arguments. -/
structure Call where
  name : String
  function : CustomFunction
  arguments : List Float

/-- What evaluations act on: the bindings, and the calls of custom functions made so far. -/
structure Environment where
  bindings : Bindings
  calls : List Call

namespace Environment

def record (e : Environment) (call : Call) : Environment :=
  { e with calls := e.calls ++ [call] }

def apply (e : Environment) (change : Edit) : Environment :=
  { e with bindings := e.bindings.apply change }

def define (e : Environment) (name : String) (function : CustomFunction) : Environment :=
  { e with bindings := e.bindings.setFunction name function }

end Environment

/-- The outcome of an evaluation, and the environment that it leaves behind. -/
abbrev Outcome := Except Failure Float × Environment

/-- How an expression is evaluated in an environment. -/
abbrev Evaluator := String → Environment → Outcome

namespace Action

/-- Carries out an action, with `evaluate` for the expressions in it. -/
def perform (evaluate : Evaluator) : Action → Environment → Outcome
  | .give result, e => (result.toFloat.mapError .breakdown, e)
  | .fail failure, e => (.error failure, e)
  | .evaluate expression next, e =>
    let outcome := evaluate expression e
    (next outcome.1).perform evaluate outcome.2
  | .edit change next, e => next.perform evaluate (e.apply change)
  | .define name callback arity next, e =>
    next.perform evaluate (e.define name ⟨callback, arity⟩)

end Action

namespace CustomFunction

/-- Calls a custom function under the name it is bound to: the call is recorded, its action is
carried out, and a breakdown in it becomes a fault of the call. -/
def call (evaluate : Evaluator) (name : String) (function : CustomFunction)
    (arguments : List Float) (e : Environment) : Outcome :=
  let outcome :=
    (function.callback arguments).perform evaluate (e.record ⟨name, function, arguments⟩)
  (outcome.1.mapError (Failure.inCall name), outcome.2)

end CustomFunction

namespace Callback

/-- Ends in a number. -/
def answer (value : Float) : Action := .give (.real value)

/-- Ends in the first argument. -/
def answerFirst : Callback
  | [] => .fail (.breakdown .missingArgument)
  | first :: _ => answer first

def sum : Callback := fun arguments => answer (arguments.foldl (· + ·) 0.0)

def product : Callback := fun arguments => answer (arguments.foldl (· * ·) 1.0)

def count : Callback := fun arguments => answer (Float.ofNat arguments.length)

/-- The quotient of the first two arguments, which fails for a zero divisor. -/
def divide : Callback
  | x :: y :: _ => if y == 0.0 then .fail (.breakdown .divisionByZero) else answer (x / y)
  | _ => .fail (.breakdown .missingArgument)

/-- The argument with a given index, counted from the end if negative. -/
def argument (index : Int) : Callback := fun arguments =>
  let position := if index < 0 then index + arguments.length else index
  match (if position < 0 then none else arguments[position.toNat]?) with
  | some value => answer value
  | none => .fail (.breakdown .missingArgument)

/-- The same value for all arguments. -/
def constant (value : Datum) : Callback := fun _ => .give value

def failing (failure : Failure) : Callback := fun _ => .fail failure

/-- Ends in a number, or in a failure. -/
def handOn : Except Failure Float → Action
  | .ok value => answer value
  | .error failure => .fail failure

/-- The value of an expression. A failure of its evaluation is one of the callback. -/
def evaluation (expression : String) : Callback := fun _ => .evaluate expression handOn

/-- Sets a variable to the first argument, and answers with it. -/
def settingVariable (name : String) : Callback
  | [] => .fail (.breakdown .missingArgument)
  | first :: _ => .edit (.setVariable name first) (answer first)

/-- Removes a variable, and then answers with the first argument. -/
def removingVariable (name : String) : Callback := fun arguments =>
  .edit (.removeVariable name) (answerFirst arguments)

/-- Removes a function, and then answers with the first argument. -/
def removingFunction (name : String) : Callback := fun arguments =>
  .edit (.removeFunction name) (answerFirst arguments)

end Callback

end Reckon
