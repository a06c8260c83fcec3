import Reckon.Calculator

/-!
# Sessions

A session works on any number of calculators by name. A step concerns one calculator, and a
definition that is rejected is not made. Those before it in the same step are kept.
-/
namespace Reckon

/-- What is asked of a calculator. -/
inductive Step where
  /-- Puts a new calculator in its place. -/
  | create (precision : Precision)
  | addVariable (name : String) (value : Given)
  | addVariables (pairs : List (String × Given))
  | removeVariable (name : String)
  | addFunction (name : String) (candidate : Candidate) (arity : Datum)
  | removeFunction (name : String)
  | setPrecision (precision : Precision)
  | evaluate (expression : String)

/-- What comes of a step: a value, nothing, or a failure, and the calls made on the way. -/
structure Answer where
  result : Except Failure (Option Float)
  calls : List Call

namespace Answer

/-- A step that was carried out. -/
def done : Answer := ⟨.ok none, []⟩

/-- A step that was rejected. -/
def rejected (breakdown : Breakdown) : Answer := ⟨.error (.breakdown breakdown), []⟩

end Answer

namespace Calculator

/-- The calculator after a change, or as it was if the change was rejected. -/
def accept (c : Calculator) : Except Breakdown Calculator → Answer × Calculator
  | .ok after => (.done, after)
  | .error breakdown => (.rejected breakdown, c)

/-- Defines several functions, up to the first that is rejected. -/
def addFunctions (c : Calculator) :
    List (String × Candidate × Datum) → Option Breakdown × Calculator
  | [] => (none, c)
  | (name, candidate, arity) :: more =>
    match c.addFunction name candidate arity with
    | .ok after => after.addFunctions more
    | .error breakdown => (some breakdown, c)

/-- Carries out a step. -/
def step (c : Calculator) : Step → Answer × Calculator
  | .create precision => (.done, .new precision)
  | .addVariable name value => c.accept (c.addVariable name value)
  | .addVariables pairs =>
    let added := c.addVariables pairs
    (added.1.elim .done .rejected, added.2)
  | .removeVariable name => (.done, c.removeVariable name)
  | .addFunction name candidate arity => c.accept (c.addFunction name candidate arity)
  | .removeFunction name => (.done, c.removeFunction name)
  | .setPrecision precision => (.done, { c with precision })
  | .evaluate expression =>
    let outcome := c.run expression
    (⟨outcome.1.map some, outcome.2.calls⟩, { c with bindings := outcome.2.bindings })

/-- Carries out steps one after another. -/
def steps (c : Calculator) : List Step → List Answer × Calculator
  | [] => ([], c)
  | step :: more =>
    let first := c.step step
    let others := first.2.steps more
    (first.1 :: others.1, others.2)

end Calculator

/-- Calculators by name. -/
abbrev Session := Table Calculator

namespace Session

/-- The calculator of a name, which is new if it has not been used yet. -/
def calculator (s : Session) (name : String) : Calculator :=
  (s.get? name).getD (.new .exact)

/-- Carries out a step on the calculator `name`. -/
def step (s : Session) (name : String) (step : Step) : Answer × Session :=
  let result := (s.calculator name).step step
  (result.1, s.put name result.2)

end Session

/-- Evaluates an expression once, with a calculator of its own. -/
def evaluateOnce (pairs : List (String × Given)) (functions : List (String × Candidate × Datum))
    (precision : Precision) (expression : String) : Answer :=
  let defined := (Calculator.new precision).addVariables pairs
  match defined.1 with
  | some breakdown => .rejected breakdown
  | none =>
    let ready := defined.2.addFunctions functions
    match ready.1 with
    | some breakdown => .rejected breakdown
    | none => (ready.2.step (.evaluate expression)).1

end Reckon
