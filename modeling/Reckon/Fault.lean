import Reckon.Text.Quoted

/-!
# What can go wrong

A `Fault` lies in the expression: its syntax, its names, or a call in it. A `Breakdown` lies
outside: in a callback, in a value handed in from outside, or in rounding. Inside a call a
breakdown becomes a fault of that call, once.
-/
namespace Reckon

/-- What can go wrong outside an expression. -/
inductive Breakdown where
  /-- A text that writes no number. -/
  | unreadable (text : String)
  /-- An integer past the largest double. -/
  | integerTooLarge
  /-- A value of a kind that is not a number. -/
  | notNumeric (kind : String)
  /-- A number of places of a kind that is not an integer. -/
  | placesNotInteger (kind : String)
  /-- A rounded value past the largest double. -/
  | roundedTooLarge
  /-- An estimate of the size of a factorial past the largest double. -/
  | estimateTooLarge
  /-- A value registered as a function that cannot be called, as shown. -/
  | notCallable (shown : String)
  /-- A definition with neither a name nor a value. -/
  | emptyDefinition
  /-- A number of arguments, as shown, that no function can have. -/
  | badArity (shown name : String)
  /-- An argument that a callback asks for and does not get. -/
  | missingArgument
  /-- The greatest or least of no numbers. -/
  | noExtremum (operation : String)
  | divisionByZero
  /-- Raised by a callback on purpose. -/
  | raised (message : String)
  /-- Evaluations nested too deep in each other's callbacks. -/
  | nestedTooDeep
  deriving DecidableEq, Repr

/-- What can go wrong in an expression. Positions count characters from the start of the text,
and no character is found at its end. -/
inductive Fault where
  | emptyInput
  /-- A closing parenthesis is missing. -/
  | unbalanced (found : Option Char) (position : Nat)
  /-- Neither an operand nor the end of the text stands where one has to. -/
  | unexpected (found : Option Char) (position : Nat)
  | unknownName (name : String) (position : Nat)
  /-- A call with the wrong number of arguments; `none` expects one or more. -/
  | argumentCount (function : String) (expected : Option Int) (actual : Int)
  /-- A breakdown in a call of a custom function. -/
  | call (function : String) (cause : Breakdown)
  deriving DecidableEq, Repr

/-- Why a text is refused while it is read. -/
inductive Rejection where
  | unbalanced (found : Option Char) (position : Nat)
  | unexpected (found : Option Char) (position : Nat)
  | unknownName (name : String) (position : Nat)
  | argumentCount (function : String) (expected : Option Int) (actual : Int)
  deriving DecidableEq, Repr

/-- The fault that a rejected text has. -/
def Rejection.fault : Rejection → Fault
  | .unbalanced found position => .unbalanced found position
  | .unexpected found position => .unexpected found position
  | .unknownName name position => .unknownName name position
  | .argumentCount function expected actual => .argumentCount function expected actual

instance : Coe Rejection Fault := ⟨Rejection.fault⟩

/-- Why an evaluation has no value. -/
inductive Failure where
  | fault (f : Fault)
  | breakdown (b : Breakdown)
  deriving DecidableEq, Repr

/-- A text between quotes. -/
def quoted (text : String) : String :=
  String.ofList (Text.quoted text.toList)

namespace Breakdown

def message : Breakdown → String
  | .unreadable text => s!"could not convert string to float: {quoted text}"
  | .integerTooLarge => "int too large to convert to float"
  | .notNumeric kind =>
    s!"float() argument must be a string or a real number, not {quoted kind}"
  | .placesNotInteger kind => s!"{quoted kind} object cannot be interpreted as an integer"
  | .roundedTooLarge => "rounded value too large to represent"
  | .estimateTooLarge => "math range error"
  | .notCallable shown => s!"{shown} is not callable"
  | .badArity shown name => s!"Bad arity {shown} for {quoted name}"
  | .emptyDefinition => "not enough values to unpack (expected 2, got 0)"
  | .missingArgument => "list index out of range"
  | .noExtremum operation =>
    s!"zero-size array to reduction operation {operation} which has no identity"
  | .divisionByZero => "float division by zero"
  | .raised message => message
  | .nestedTooDeep => "maximum recursion depth exceeded"

end Breakdown

namespace Fault

/-- How a message names the character that was found. -/
def described : Option Char → String
  | none => "end of input"
  | some c => s!"character {quoted c.toString}"

def message : Fault → String
  | .emptyInput => "The line is empty!"
  | .unbalanced found position => s!"Expected ')' at {position}, found {described found}"
  | .unexpected found position => s!"Unexpected {described found} at {position}"
  | .unknownName name position => s!"Ident {quoted name} at {position} is not defined"
  | .argumentCount function none actual =>
    s!"Expected at least one argument for {quoted function}, got {actual}"
  | .argumentCount function (some expected) actual =>
    s!"Expected {expected} argument(s) for {quoted function}, got {actual}"
  | .call function _ => s!"Error calling {quoted function}"

end Fault

namespace Failure

def message : Failure → String
  | .fault f => f.message
  | .breakdown b => b.message

/-- A failure as it leaves a call of the custom function `name`: a breakdown becomes a fault of
the call, and a fault passes through. -/
def inCall (name : String) : Failure → Failure
  | .breakdown b => .fault (.call name b)
  | .fault f => .fault f

end Failure

end Reckon
