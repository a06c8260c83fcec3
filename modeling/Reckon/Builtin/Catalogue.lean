import Reckon.Builtin.Counting
import Reckon.Number.Power
import Reckon.Number.Summation

/-!
# Builtin functions and constants

Every function takes the list of its arguments. All arithmetic is that of doubles, so that domain
errors and overflow give no number or infinity; only the counting functions can break down.
-/
namespace Reckon

/-- A builtin function: how many arguments it takes (one or more, if `none`) and its value. -/
structure Builtin where
  arity : Option Nat
  apply : List Float → Except Breakdown Float

namespace Builtin

def unary (f : Float → Float) : Builtin where
  arity := some 1
  apply
    | x :: _ => .ok (f x)
    | [] => .error .missingArgument

def binary (f : Float → Float → Except Breakdown Float) : Builtin where
  arity := some 2
  apply
    | x :: y :: _ => f x y
    | _ => .error .missingArgument

def variadic (f : List Float → Except Breakdown Float) : Builtin where
  arity := none
  apply := f

def pi : Float := 3.141592653589793

def tau : Float := 6.283185307179586

def euler : Float := 2.718281828459045

/-- The sign of a number as 1, -1 or 0. -/
def signOf (x : Float) : Float :=
  if x > 0.0 then 1.0 else if x < 0.0 then -1.0 else if x == 0.0 then 0.0 else x

/-- Takes the first argument if it comes before the second or is not a number. -/
def choose (precedes : Float → Float → Bool) (x y : Float) : Float :=
  if precedes x y || x.isNaN then x else y

/-- The first of the arguments in an order, and of equal ones the last given; what is not a number
wins over everything. -/
def extremum (operation : String) (precedes : Float → Float → Bool) : Builtin :=
  variadic fun
    | [] => .error (.noExtremum operation)
    | x :: xs => .ok (xs.foldl (choose precedes) x)

/-- A builtin function with the names that call it. -/
structure Entry where
  name : String
  aliases : List String
  builtin : Builtin

def Entry.names (entry : Entry) : List String := entry.name :: entry.aliases

/-- The builtin functions. -/
def catalogue : List Entry :=
  [⟨"abs", [], unary Float.abs⟩,
   ⟨"acos", ["arccos"], unary Float.acos⟩,
   ⟨"asin", ["arcsin"], unary Float.asin⟩,
   ⟨"atan", ["arctan", "arctg"], unary Float.atan⟩,
   ⟨"atan2", ["arctan2"], binary fun y x => .ok (Float.atan2 y x)⟩,
   ⟨"ceil", [], unary Float.ceil⟩,
   ⟨"cos", [], unary Float.cos⟩,
   ⟨"cosh", [], unary Float.cosh⟩,
   ⟨"deg", [], unary (· * (180.0 / pi))⟩,
   ⟨"exp", [], unary Float.exp⟩,
   ⟨"fac", [], unary factorialOf⟩,
   ⟨"floor", [], unary Float.floor⟩,
   ⟨"ln", [], unary Float.log⟩,
   ⟨"log", ["log10"], unary Float.log10⟩,
   ⟨"log2", [], unary Float.log2⟩,
   ⟨"max", [], extremum "maximum" fun x y => decide (x > y)⟩,
   ⟨"min", [], extremum "minimum" fun x y => decide (x < y)⟩,
   ⟨"ncr", ["binom"], binary (binomial .double)⟩,
   ⟨"npr", [], binary (permutations .double)⟩,
   ⟨"pow", [], binary fun x y => .ok (Number.power x y)⟩,
   ⟨"rad", [], unary (· * (pi / 180.0))⟩,
   ⟨"sgn", [], unary signOf⟩,
   ⟨"sin", [], unary Float.sin⟩,
   ⟨"sinh", [], unary Float.sinh⟩,
   ⟨"sqrt", [], unary Float.sqrt⟩,
   ⟨"sum", [], variadic fun xs => .ok (Number.sum xs)⟩,
   ⟨"tan", ["tg"], unary Float.tan⟩,
   ⟨"tanh", [], unary Float.tanh⟩]

/-- The builtin constants. -/
def constants : List (String × Float) :=
  [("pi", pi), ("tau", tau), ("e", euler)]

def constant? (name : String) : Option Float :=
  constants.lookup name

/-- The entry that a name calls. -/
def find? (name : String) : Option Entry :=
  catalogue.find? fun entry => entry.names.contains name

def builtin? (name : String) : Option Builtin :=
  (find? name).map Entry.builtin

/-- Names in the order of their characters. -/
def sortedNames (names : List String) : List String :=
  names.mergeSort fun a b => decide (a ≤ b)

/-- The names of all functions, in order. -/
def functionNames : List String :=
  sortedNames (catalogue.flatMap Entry.names)

/-- The names of all constants, in order. -/
def constantNames : List String :=
  sortedNames (constants.map Prod.fst)

end Builtin

end Reckon
