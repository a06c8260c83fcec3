import Reckon.Session

/-!
# Evaluators in a shared memory

Calculators are values, so nothing that one of them does could ever reach another one. Here they are
objects in a memory instead, as a program with callbacks has them: an evaluator refers to two tables
by their addresses, and a function in a table works on the evaluator whose address it holds, which
may be any. Whatever is evaluated reads and writes the tables in the memory.
-/
namespace Reckon

/-- Where an object lies among those of its kind. -/
abbrev Address := Nat

/-- The objects of one kind. A new one gets the first free address. -/
structure Region (α : Type) where
  cell : Address → α
  free : Address

namespace Region
variable {α : Type}

def write (r : Region α) (a : Address) (x : α) : Region α :=
  { r with cell := fun b => if b = a then x else r.cell b }

def alloc (r : Region α) (x : α) : Region α :=
  { r.write r.free x with free := r.free + 1 }

end Region

/-- An evaluator: where its tables are, and how it rounds. -/
structure Instance where
  numbers : Address
  functions : Address
  precision : Precision

/-- A function whose callback works on the evaluator `owner`, whichever evaluator calls it. -/
structure Closure where
  owner : Address
  function : CustomFunction

structure Memory where
  instances : Region Instance
  numbers : Region (Table Float)
  functions : Region (Table Closure)

/-- A memory, and the calls made so far. -/
structure World where
  memory : Memory
  calls : List Call

namespace Memory

def empty : Memory := ⟨⟨fun _ => ⟨0, 0, .exact⟩, 0⟩, ⟨fun _ => .empty, 0⟩, ⟨fun _ => .empty, 0⟩⟩

variable (m : Memory) (a : Address)

def numbersOf : Table Float := m.numbers.cell (m.instances.cell a).numbers

def functionsOf : Table Closure := m.functions.cell (m.instances.cell a).functions

def setNumbers (t : Table Float) : Memory :=
  { m with numbers := m.numbers.write (m.instances.cell a).numbers t }

def setFunctions (t : Table Closure) : Memory :=
  { m with functions := m.functions.write (m.instances.cell a).functions t }

/-- The memory with a new evaluator, which has new tables. -/
def create (precision : Precision) : Memory :=
  ⟨m.instances.alloc ⟨m.numbers.free, m.functions.free, precision⟩, m.numbers.alloc .empty,
    m.functions.alloc .empty⟩

def setPrecision (precision : Precision) : Memory :=
  { m with instances := m.instances.write a { m.instances.cell a with precision } }

/-- An edit of the tables of an evaluator. -/
def edit : Edit → Memory
  | .setVariable name value => m.setNumbers a ((m.numbersOf a).put name value)
  | .removeVariable name => m.setNumbers a ((m.numbersOf a).erase name)
  | .removeFunction name => m.setFunctions a ((m.functionsOf a).erase name)

/-- Defines or redefines a function of an evaluator. -/
def define (name : String) (closure : Closure) : Memory :=
  m.setFunctions a ((m.functionsOf a).put name closure)

end Memory

/-- What comes of something in a memory, and what it leaves behind. -/
abbrev Effect (α : Type) := World → Except Failure α × World

/-- How the evaluator at an address evaluates an expression. -/
abbrev Resident := Address → String → Effect Float

/-- Carries out an action on the evaluator at an address. -/
def Action.performAt (evaluate : Resident) (a : Address) : Action → Effect Float
  | .give result, w => (result.toFloat.mapError .breakdown, w)
  | .fail failure, w => (.error failure, w)
  | .evaluate expression next, w =>
    let outcome := evaluate a expression w
    (next outcome.1).performAt evaluate a outcome.2
  | .edit change next, w => next.performAt evaluate a { w with memory := w.memory.edit a change }
  | .define name callback arity next, w =>
    next.performAt evaluate a { w with memory := w.memory.define a name ⟨a, ⟨callback, arity⟩⟩ }

/-- Calls a function. Its callback acts on its owner. -/
def Closure.call (evaluate : Resident) (name : String) (closure : Closure)
    (arguments : List Float) : Effect Float := fun w =>
  let call : Call := ⟨name, closure.function, arguments⟩
  let outcome := (closure.function.callback arguments).performAt evaluate closure.owner
    { w with calls := w.calls ++ [call] }
  (outcome.1.mapError (Failure.inCall name), outcome.2)

namespace Expression

/-- Where an evaluation in a memory stands. -/
structure Site where
  cursor : Cursor
  world : World

/-- A step of an evaluation that reads the tables of `object`. -/
def Tied (_object : Instance) (α : Type) : Type := EStateM Halt Site α

namespace Tied

variable {object : Instance} {α : Type}

instance : Monad (Tied object) := inferInstanceAs (Monad (EStateM Halt Site))

def onCursor (operation : Cursor → α × Cursor) : Tied object α := fun s =>
  let result := operation s.cursor
  .ok result.1 { s with cursor := result.2 }

/-- Has an effect on the memory. -/
def act (effect : Effect α) : Tied object α := fun s =>
  match effect s.world with
  | (.ok a, w) => .ok a { s with world := w }
  | (.error failure, w) => .error (.failed failure) { s with world := w }

def literal : Tied object Float := do
  let value ← onCursor Cursor.scanNumber
  act fun w => (value.mapError fun lexeme => .breakdown (.unreadable (String.ofList lexeme)), w)

/-- The meaning of a name in the tables as they are now. -/
def meaningOf (name : String) : Tied object (Meaning Closure) := fun s =>
  let tables : Bindings Closure :=
    ⟨s.world.memory.numbers.cell object.numbers, s.world.memory.functions.cell object.functions⟩
  .ok (tables.meaning name) s

instance : Surroundings Closure Resident (Tied object) where
  arityOf closure := closure.function.arity
  onCursor := onCursor
  scanName := onCursor Cursor.scanIdentifier
  literal := literal
  meaningOf name _ := meaningOf name
  callCustom evaluate name closure arguments := act (closure.call evaluate name arguments)
  callBuiltin _ function arguments :=
    act fun w => ((function.apply arguments).mapError .breakdown, w)
  reject {α} rejection := (throw (.failed (.fault rejection)) : EStateM Halt Site α)
  exhausted {α} := (throw .exhausted : EStateM Halt Site α)

end Tied

end Expression

open Expression

/-- Evaluates an expression with the evaluator at an address, `inner` being the evaluations in
callbacks. -/
def evaluateAtWith (inner : Resident) : Resident := fun a expression w =>
  if expression.isEmpty then (.error (.fault .emptyInput), w)
  else
    let object := w.memory.instances.cell a
    let bound := boundFor expression.toList
    let run : Tied object Float := wholeOf (expressionOf (factorWithin inner bound) bound)
    match run ⟨.ofText expression.toList, w⟩ with
    | .ok value s =>
      ((s.world.memory.instances.cell a).precision.round value |>.mapError .breakdown, s.world)
    | .error halt s => (.error halt.failure, s.world)

/-- Evaluates an expression, with evaluations nested in callbacks up to `depth` deep. -/
def evaluateAt : Nat → Resident
  | 0 => evaluateAtWith fun _ _ w => (.error (.breakdown .nestedTooDeep), w)
  | depth + 1 => evaluateAtWith (evaluateAt depth)

/-- What is asked of the evaluator `on`. A function that is added works on the evaluator `owner`. -/
structure Request where
  on : String
  step : Step
  owner : String

/-- Evaluators by name, in one memory. -/
structure Store where
  names : Table Address
  memory : Memory

namespace Store

def empty : Store := ⟨.empty, .empty⟩

/-- The store with a new evaluator for a name. -/
def create (s : Store) (name : String) (precision : Precision) : Store :=
  ⟨s.names.put name s.memory.instances.free, s.memory.create precision⟩

/-- The evaluator of a name, which is made if the name has not been used yet. -/
def locate (s : Store) (name : String) : Address × Store :=
  match s.names.get? name with
  | some a => (a, s)
  | none => (s.memory.instances.free, s.create name .exact)

end Store

namespace Memory

/-- The memory after a change, or as it was if the change was rejected. -/
def accept (m : Memory) : Except Breakdown Memory → Answer × Memory
  | .ok after => (.done, after)
  | .error breakdown => (.rejected breakdown, m)

def addVariable (m : Memory) (a : Address) (name : String) (value : Given) :
    Except Breakdown Memory :=
  value.toVariable.map fun x => m.edit a (.setVariable name x)

/-- Defines variables in order, up to the first whose value is not a number. -/
def addVariables (m : Memory) (a : Address) : List (String × Given) → Option Breakdown × Memory
  | [] => (none, m)
  | (name, value) :: more =>
    match m.addVariable a name value with
    | .ok after => after.addVariables a more
    | .error breakdown => (some breakdown, m)

def addFunction (m : Memory) (a owner : Address) (name : String) (candidate : Candidate)
    (arity : Datum) : Except Breakdown Memory :=
  match candidate with
  | .value v => .error (.notCallable v.shown)
  | .callback f => (arity.toArity name).map fun n => m.define a name ⟨owner, ⟨f, n⟩⟩

end Memory

namespace Store

/-- Works on the evaluator of a name. -/
def work (s : Store) (name : String) (f : Memory → Address → Answer × Memory) : Answer × Store :=
  let located := s.locate name
  let result := f located.2.memory located.1
  (result.1, { located.2 with memory := result.2 })

/-- Carries out a request. -/
def step (s : Store) (r : Request) : Answer × Store :=
  match r.step with
  | .create precision => (.done, s.create r.on precision)
  | .addVariable name value => s.work r.on fun m a => m.accept (m.addVariable a name value)
  | .addVariables pairs => s.work r.on fun m a =>
    let added := m.addVariables a pairs
    (added.1.elim .done .rejected, added.2)
  | .removeVariable name => s.work r.on fun m a => (.done, m.edit a (.removeVariable name))
  | .addFunction name candidate arity =>
    let owner := s.locate r.owner
    owner.2.work r.on fun m a => m.accept (m.addFunction a owner.1 name candidate arity)
  | .removeFunction name => s.work r.on fun m a => (.done, m.edit a (.removeFunction name))
  | .setPrecision precision => s.work r.on fun m a => (.done, m.setPrecision a precision)
  | .evaluate expression => s.work r.on fun m a =>
    let outcome := evaluateAt nestingLimit a expression ⟨m, []⟩
    (⟨outcome.1.map some, outcome.2.calls⟩, outcome.2.memory)

/-- Carries out requests one after another, with the answers under the names of the evaluators. -/
def steps (s : Store) : List Request → List (String × Answer) × Store
  | [] => ([], s)
  | r :: more =>
    let first := s.step r
    let others := first.2.steps more
    ((r.on, first.1) :: others.1, others.2)

end Store

end Reckon
