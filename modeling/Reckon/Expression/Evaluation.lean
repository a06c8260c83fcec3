import Reckon.Cursor
import Reckon.Expression.Meaning

/-!
# Evaluating an expression

An expression is evaluated while it is read, from left to right; no tree is built, and a name means
what it means at the moment it is read.

    expression := term (('+' | '-') term)*
    term       := factor (('*' | '/' | '%' | '^') factor)*
    factor     := '+' factor | '-' factor | '(' expression ')'
                | name [arguments] | number
    arguments  := '(' (expression [','])* ')' | factor

`factor` recurses on a bound for the depth, and the loops run within the same bound: each round
and each level consumes a character, so one more than the length of the text is always enough.

The evaluator is written for any surroundings: it takes the cursor, the meanings of names, the calls
and the failures as operations that it is given. `Parse` has those that run it.
-/
namespace Reckon.Expression

/-- The operations that an evaluation is made of. Custom functions are of the type `φ`, and their
callbacks evaluate further expressions with a value of the type `ρ`. -/
class Surroundings (φ ρ : outParam Type) (m : Type → Type) where
  arityOf : φ → Option Nat
  /-- Moves the cursor by an operation of its own, and returns what that operation found. -/
  onCursor {α : Type} (operation : Cursor → α × Cursor) : m α
  /-- Consumes a name and returns it, if there is one here. -/
  scanName : m (Option String)
  /-- Consumes a literal and returns its value. -/
  literal : m Float
  /-- The present meaning of a name that was read at `start`. -/
  meaningOf (name : String) (start : Nat) : m (Meaning φ)
  callCustom (evaluate : ρ) (name : String) (function : φ) (arguments : List Float) : m Float
  callBuiltin (name : String) (function : Builtin) (arguments : List Float) : m Float
  reject {α : Type} (rejection : Rejection) : m α
  /-- The bound on the depth was too small for the text. -/
  exhausted {α : Type} : m α

export Surroundings (onCursor scanName literal meaningOf callCustom callBuiltin reject exhausted)

section Parts
variable {φ ρ : Type} {m : Type → Type} [Monad m] [Surroundings φ ρ m]

/-- Moves the cursor. -/
def move (operation : Cursor → Cursor) : m Unit :=
  onCursor fun c => ((), operation c)

/-- The position of the cursor. -/
def position : m Nat :=
  onCursor fun c => (c.pos, c)

/-- Rejects the text for what stands at the cursor. -/
def failAt {α : Type} (rejection : Option Char → Nat → Rejection) : m α := do
  let c ← onCursor fun c => (c, c)
  reject (rejection c.current c.pos)

/-- Applies operators to a value and further operands, from left to right, for as long as an
operator follows. -/
def chain (operator? : Char → Option (Float → Float → Float)) (operand : m Float) :
    Nat → Float → m Float
  | 0, _ => exhausted
  | rounds + 1, value => do
    match ← onCursor (Cursor.accept operator?) with
    | none => return value
    | some apply =>
      let next ← operand
      chain operator? operand rounds (apply value next)

/-- Factors joined by the operators of a term. -/
def termOf (factor : m Float) (rounds : Nat) : m Float := do
  let value ← factor
  chain multiplicative? factor rounds value

/-- Terms joined by the operators of an expression. -/
def expressionOf (factor : m Float) (rounds : Nat) : m Float := do
  let value ← termOf factor rounds
  chain additive? (termOf factor rounds) rounds value

/-- Consumes a closing parenthesis. -/
def close : m Unit := do
  if ← onCursor (Cursor.consumeIf [')']) then return ()
  else
    move Cursor.skipBlanks
    failAt .unbalanced

/-- Consumes a comma directly under the cursor, if there is one. -/
def skipComma : m Unit :=
  move fun c => if c.ch = ',' then c.forward 1 else c

/-- The arguments up to the closing parenthesis. Whatever cannot start another argument ends the
list, and a comma behind an argument is optional. -/
def argumentList (expression : m Float) : Nat → m (List Float)
  | 0 => exhausted
  | rounds + 1 => do
    if ← onCursor Cursor.startsOperand then
      let value ← expression
      skipComma
      let more ← argumentList expression rounds
      return value :: more
    else
      close
      return []

/-- The arguments of a call. Without parentheses a single factor is taken. -/
def argumentsOf (factor : m Float) (rounds : Nat) : m (List Float) := do
  if ← onCursor (Cursor.consumeIf ['(']) then
    if ← onCursor (Cursor.consumeIf [')']) then return []
    else argumentList (expressionOf factor rounds) rounds
  else
    let value ← factor
    return [value]

/-- Goes on only with as many arguments as the function takes. -/
def requireArity (name : String) (arity : Option Nat) (arguments : List Float) : m Unit :=
  match checkCall name arity arguments with
  | .ok () => return ()
  | .error rejection => reject rejection

/-- The value of a name with a meaning, called if it is a function. -/
def valueOf (evaluate : ρ) (arguments : m (List Float)) (name : String) (start : Nat) :
    Meaning φ → m Float
  | .variable value => return value
  | .custom function => do
    let args ← arguments
    requireArity name (Surroundings.arityOf m function) args
    callCustom evaluate name function args
  | .constant value => return value
  | .builtin function => do
    let args ← arguments
    requireArity name function.arity args
    callBuiltin name function args
  | .unknown => reject (.unknownName name start)

/-- The value of a name that was read at `start`. Its entry is fetched before any arguments are
read. -/
def resolve (evaluate : ρ) (arguments : m (List Float)) (name : String) (start : Nat) :
    m Float := do
  let meaning ← meaningOf name start
  valueOf evaluate arguments name start meaning

/-- A literal, or a rejection where none can start. -/
def literalOrFail : m Float := do
  if ← onCursor fun c => (c.startsNumber, c) then literal
  else failAt .unexpected

/-- A factor that starts with neither a sign nor a parenthesis. -/
def operand (evaluate : ρ) (arguments : m (List Float)) : m Float := do
  move Cursor.skipBlanks
  let start ← position
  match ← scanName with
  | some name => resolve evaluate arguments name start
  | none => literalOrFail

/-- A factor, with `inner` for the factors in it. -/
def factorOf (evaluate : ρ) (inner : m Float) (rounds : Nat) : m Float := do
  if ← onCursor (Cursor.consumeIf ['+']) then inner
  else if ← onCursor (Cursor.consumeIf ['-']) then
    let value ← inner
    return -value
  else if ← onCursor (Cursor.consumeIf ['(']) then
    let value ← expressionOf inner rounds
    close
    return value
  else operand evaluate (argumentsOf inner rounds)

/-- A factor with at most `bound` factors nested in each other. -/
def factorWithin (evaluate : ρ) : Nat → m Float
  | 0 => exhausted
  | bound + 1 => factorOf evaluate (factorWithin evaluate bound) bound

/-- An expression that the rest of the text has to be. -/
def wholeOf (expression : m Float) : m Float := do
  let value ← expression
  if ← onCursor fun c => (c.atEnd, c) then return value
  else failAt .unexpected

end Parts

/-- Where the evaluation stands, and what it acts on. -/
structure State where
  cursor : Cursor
  environment : Environment

/-- Why an evaluation stops before its end. -/
inductive Halt where
  | failed (failure : Failure)
  /-- The bound on the depth was too small for the text. -/
  | exhausted
  deriving DecidableEq, Repr

/-- A step of an evaluation. A step that stops leaves the state as it was then. -/
abbrev Parse : Type → Type := EStateM Halt State

/-- A result that is already known. -/
def lift {α : Type} (result : Except Failure α) : Parse α := fun s =>
  match result with
  | .ok value => .ok value s
  | .error failure => .error (.failed failure) s

namespace Parse

def onCursor {α : Type} (operation : Cursor → α × Cursor) : Parse α := fun s =>
  let result := operation s.cursor
  .ok result.1 { s with cursor := result.2 }

def literal : Parse Float := do
  let value ← onCursor Cursor.scanNumber
  lift (value.mapError fun lexeme => .breakdown (.unreadable (String.ofList lexeme)))

/-- The meaning of a name under the present bindings. -/
def meaningOf (name : String) : Parse Meaning := fun s =>
  .ok (s.environment.bindings.meaning name) s

/-- Calls a custom function with `evaluate` for the expressions that its callback evaluates. -/
def callCustom (evaluate : Evaluator) (name : String) (function : CustomFunction)
    (arguments : List Float) : Parse Float := fun s =>
  let outcome := function.call evaluate name arguments s.environment
  lift outcome.1 { s with environment := outcome.2 }

end Parse

instance : Surroundings CustomFunction Evaluator Parse where
  arityOf := CustomFunction.arity
  onCursor := Parse.onCursor
  scanName := Parse.onCursor Cursor.scanIdentifier
  literal := Parse.literal
  meaningOf name _ := Parse.meaningOf name
  callCustom := Parse.callCustom
  callBuiltin _ function arguments := lift ((function.apply arguments).mapError .breakdown)
  reject rejection := throw (.failed (.fault rejection))
  exhausted := throw .exhausted

def factor (evaluate : Evaluator) (bound : Nat) : Parse Float :=
  factorWithin evaluate bound

def term (evaluate : Evaluator) (bound : Nat) : Parse Float :=
  termOf (factor evaluate bound) bound

def expression (evaluate : Evaluator) (bound : Nat) : Parse Float :=
  expressionOf (factor evaluate bound) bound

def arguments (evaluate : Evaluator) (bound : Nat) : Parse (List Float) :=
  argumentsOf (factor evaluate bound) bound

def whole (evaluate : Evaluator) (bound : Nat) : Parse Float :=
  wholeOf (expression evaluate bound)

/-- A bound that no evaluation within the text reaches. -/
def boundFor (text : List Char) : Nat := text.length + 1

/-- What an evaluation that stopped fails with. -/
def Halt.failure : Halt → Failure
  | .failed failure => failure
  | .exhausted => .breakdown .nestedTooDeep

/-- Evaluates a whole text in an environment. -/
def evaluateText (evaluate : Evaluator) (text : List Char) (e : Environment) : Outcome :=
  match whole evaluate (boundFor text) ⟨.ofText text, e⟩ with
  | .ok value s => (.ok value, s.environment)
  | .error halt s => (.error halt.failure, s.environment)

end Reckon.Expression
