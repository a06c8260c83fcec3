import Reckon.Expression.Evaluation
import Reckon.Number.Places

/-!
# Calculators

A calculator evaluates expressions under its own variables and functions, and rounds every result
to its precision.
-/
namespace Reckon

/-- How results are rounded. -/
inductive Precision where
  | exact
  | places (count : Int)
  /-- A number of places of a kind that is not an integer. It fails once there is a result. -/
  | unusable (kind : String)
  deriving DecidableEq, Repr

namespace Precision

/-- The precision that a value stands for; truth values count as one and zero places. -/
def ofDatum : Datum → Precision
  | .nothing => .exact
  | .truth value => .places (if value then 1 else 0)
  | .integer count => .places count
  | other => .unusable other.kind

/-- Rounds a result. -/
def round (x : Float) : Precision → Except Breakdown Float
  | .exact => .ok x
  | .places count =>
    match Number.roundTo? count x with
    | some rounded => .ok rounded
    | none => .error .roundedTooLarge
  | .unusable kind => .error (.placesNotInteger kind)

end Precision

/-- Evaluates an expression, `inner` being the evaluations in callbacks. -/
def evaluateWith (inner : Evaluator) (precision : Precision) : Evaluator :=
  fun expression e =>
    if expression.isEmpty then (.error (.fault .emptyInput), e)
    else
      let outcome := Expression.evaluateText inner expression.toList e
      (outcome.1.bind fun value => (precision.round value).mapError .breakdown, outcome.2)

/-- Evaluates an expression, with evaluations nested in callbacks up to `depth` deep. -/
def evaluateWithin (precision : Precision) : Nat → Evaluator
  | 0 => evaluateWith (fun _ e => (.error (.breakdown .nestedTooDeep), e)) precision
  | depth + 1 => evaluateWith (evaluateWithin precision depth) precision

/-- How deep evaluations may be nested in callbacks. -/
def nestingLimit : Nat := 200

/-- What is registered as a function: a callback, or a value that cannot be called. -/
inductive Candidate where
  | callback (f : Callback)
  | value (v : Datum)

/-- Bindings, and the precision of results. -/
structure Calculator where
  bindings : Bindings
  precision : Precision

namespace Calculator

/-- A calculator without variables and functions. -/
def new (precision : Precision) : Calculator := ⟨.empty, precision⟩

/-- Evaluates an expression from the present bindings. -/
def run (c : Calculator) (expression : String) : Outcome :=
  evaluateWithin c.precision nestingLimit expression ⟨c.bindings, []⟩

/-- The value of an expression. -/
def evaluate (c : Calculator) (expression : String) : Except Failure Float :=
  (c.run expression).1

/-- The calculator after evaluating an expression. -/
def afterwards (c : Calculator) (expression : String) : Calculator :=
  { c with bindings := (c.run expression).2.bindings }

/-- Defines or redefines a variable. -/
def addVariable (c : Calculator) (name : String) (value : Given) :
    Except Breakdown Calculator :=
  value.toVariable.map fun x => { c with bindings := c.bindings.setVariable name x }

/-- Defines variables in order, up to the first whose value is not a number. -/
def addVariables (c : Calculator) : List (String × Given) → Option Breakdown × Calculator
  | [] => (none, c)
  | (name, value) :: more =>
    match c.addVariable name value with
    | .ok after => after.addVariables more
    | .error breakdown => (some breakdown, c)

def removeVariable (c : Calculator) (name : String) : Calculator :=
  { c with bindings := c.bindings.removeVariable name }

/-- Defines or redefines a function. Whether it can be called is checked before its arity. -/
def addFunction (c : Calculator) (name : String) (candidate : Candidate) (arity : Datum) :
    Except Breakdown Calculator :=
  match candidate with
  | .value v => .error (.notCallable v.shown)
  | .callback f => (arity.toArity name).map fun n =>
      { c with bindings := c.bindings.setFunction name ⟨f, n⟩ }

def removeFunction (c : Calculator) (name : String) : Calculator :=
  { c with bindings := c.bindings.removeFunction name }

end Calculator

end Reckon
