import Reckon.Datum
import Reckon.Text.Blank

/-!
# Variables on the command line

A definition is a name and a number around the first equals sign, with blanks around both.
-/
namespace Reckon.CommandLine

/-- Why a text is not a definition. -/
inductive DefinitionError where
  /-- There is no equals sign, or nothing before it. -/
  | malformed (text : String)
  | badValue (name value : String)
  deriving DecidableEq, Repr

def DefinitionError.message : DefinitionError → String
  | .malformed text => s!"Expected NAME=VALUE, got {quoted text}"
  | .badValue name value => s!"Bad value for {name}: {quoted value}"

/-- The text before the first `mark` and the text behind it, if there is one. -/
def splitAtFirst? (mark : Char) (text : List Char) : Option (List Char × List Char) :=
  match text.dropWhile (· != mark) with
  | [] => none
  | _ :: behind => some (text.takeWhile (· != mark), behind)

/-- The variable that a text defines. -/
def definition (text : String) : Except DefinitionError (String × Float) :=
  match splitAtFirst? '=' text.toList with
  | none => .error (.malformed text)
  | some (before, behind) =>
    let name := Text.strip before
    if name.isEmpty then .error (.malformed text)
    else
      match Number.readFloat? behind with
      | some value => .ok (String.ofList name, value)
      | none => .error (.badValue (String.ofList name) (String.ofList behind))

end Reckon.CommandLine
