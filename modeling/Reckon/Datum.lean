import Reckon.Fault
import Reckon.Number.Reading
import Reckon.Number.Notation

/-!
# Values handed in from outside

Variables, results of callbacks, precisions and numbers of arguments come from outside as values
of any kind. This module says how such a value is shown and when it is a number.
-/
namespace Reckon

/-- A value handed in from outside. -/
inductive Datum where
  | nothing
  | truth (value : Bool)
  | integer (value : Int)
  | real (value : Float)
  | text (value : String)
  | list (items : List Datum)
  | record (fields : List (String × Datum))

namespace Datum

/-- The name of the kind of a value, as messages give it. -/
def kind : Datum → String
  | .nothing => "NoneType"
  | .truth _ => "bool"
  | .integer _ => "int"
  | .real _ => "float"
  | .text _ => "str"
  | .list _ => "list"
  | .record _ => "dict"

mutual

/-- The text that shows a value in a message. -/
def shown : Datum → String
  | .nothing => "None"
  | .truth true => "True"
  | .truth false => "False"
  | .integer value => toString value
  | .real value => String.ofList (Number.text value)
  | .text value => quoted value
  | .list items => "[" ++ ", ".intercalate (shownItems items) ++ "]"
  | .record fields => "\x7b" ++ ", ".intercalate (shownFields fields) ++ "\x7d"

def shownItems : List Datum → List String
  | [] => []
  | item :: items => shown item :: shownItems items

def shownFields : List (String × Datum) → List String
  | [] => []
  | (name, value) :: fields => (quoted name ++ ": " ++ shown value) :: shownFields fields

end

/-- The double that an integer stands for. -/
def integerValue (n : Int) : Except Breakdown Float :=
  if Number.nearest n.natAbs 1 = Number.infinite then .error .integerTooLarge
  else .ok (Number.ofInt n)

/-- The double that a text writes. -/
def textValue (s : String) : Except Breakdown Float :=
  match Number.readFloat? s.toList with
  | some x => .ok x
  | none => .error (.unreadable s)

/-- The double that a value stands for. -/
def toFloat : Datum → Except Breakdown Float
  | .truth value => .ok (if value then 1.0 else 0.0)
  | .integer value => integerValue value
  | .real value => .ok value
  | .text value => textValue value
  | other => .error (.notNumeric other.kind)

/-- The number of arguments that a value asks of the function `name`; no value asks for one or
more. -/
def toArity (name : String) : Datum → Except Breakdown (Option Nat)
  | .nothing => .ok none
  | .integer (.ofNat n) => .ok (some n)
  | other => .error (.badArity other.shown name)

end Datum

/-- A value that a variable is given. Lists are none: they would make the variable an array, and
there is no arithmetic of arrays here. -/
inductive Given where
  | nothing
  | truth (value : Bool)
  | integer (value : Int)
  | real (value : Float)
  | text (value : String)
  | record (fields : List (String × Datum))

namespace Given

/-- The value among those of any kind. -/
def datum : Given → Datum
  | .nothing => .nothing
  | .truth value => .truth value
  | .integer value => .integer value
  | .real value => .real value
  | .text value => .text value
  | .record fields => .record fields

/-- The double that a variable takes from a value: no value is not a number. -/
def toVariable : Given → Except Breakdown Float
  | .nothing => .ok Number.nan
  | other => other.datum.toFloat

end Given

/-- The value in a request for a variable, where no list ever stands. -/
def Datum.given : Datum → Given
  | .nothing => .nothing
  | .truth value => .truth value
  | .integer value => .integer value
  | .real value => .real value
  | .text value => .text value
  | .record fields => .record fields
  | .list _ => .nothing

instance : Coe Datum Given := ⟨Datum.given⟩

instance : Coe (List (String × Datum)) (List (String × Given)) :=
  ⟨List.map fun pair => (pair.1, pair.2.given)⟩

end Reckon
