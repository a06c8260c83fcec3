import Reckon.CommandLine.Definition
import Reckon.CommandLine.Flag
import Reckon.Text.Digit

/-!
# Words of the command line

Every word is a flag, an operand, or the separator `--`, behind which all words are operands. A
flag may be spelled by a unique beginning of its long form, and may have a value attached to it.
-/
namespace Reckon.CommandLine

/-- What a word is. -/
inductive Kind where
  | separator
  | operand
  /-- A flag, whether it is spelled with one dash, and what is attached to it: behind an equals
  sign, or directly behind the letter of a flag. -/
  | flag (flag : Flag) (short : Bool) (attached : Option (List Char))
  /-- A word that looks like a flag and is none. -/
  | unknown
  deriving DecidableEq, Repr

/-- A word as given, and what it is. -/
structure Word where
  text : String
  kind : Kind
  deriving DecidableEq, Repr

/-- Why a command line is refused. -/
inductive UsageError where
  | ambiguous (word : String) (candidates : List Flag)
  | missingOperand (flag : Flag)
  | superfluous (flag : Flag) (value : String)
  | notInteger (flag : Flag) (value : String)
  | badDefinition (flag : Flag) (error : DefinitionError)
  | conflict (flag other : Flag)
  | unrecognized (words : List String)
  deriving DecidableEq, Repr

namespace UsageError

/-- A message about the argument of a flag. -/
def about (flag : Flag) (text : String) : String :=
  s!"argument {flag.shown}: {text}"

def message : UsageError → String
  | .ambiguous word candidates =>
    let offered := ", ".intercalate (candidates.map fun flag => String.ofList flag.long)
    s!"ambiguous option: {word} could match {offered}"
  | .missingOperand flag => about flag "expected one argument"
  | .superfluous flag value => about flag s!"ignored explicit argument {quoted value}"
  | .notInteger flag value => about flag s!"invalid int value: {quoted value}"
  | .badDefinition flag error => about flag error.message
  | .conflict flag other => about flag s!"not allowed with argument {other.shown}"
  | .unrecognized words => "unrecognized arguments: " ++ " ".intercalate words

end UsageError

/-- Whether a word that starts with a dash is a negative number, perhaps with a line feed at its
end: digits, or a point and digits behind perhaps some more. -/
def isNegativeNumber (word : List Char) : Bool :=
  let line := if word.getLast? = some '\n' then word.dropLast else word
  match line with
  | [] => false
  | dash :: number =>
    let rest := number.dropWhile Text.isDecimal
    dash == '-' &&
      match rest with
      | [] => !number.isEmpty
      | point :: fraction => point == '.' && !fraction.isEmpty && fraction.all Text.isDecimal

/-- A word that starts with a dash, is no flag as it stands and is not the beginning of one. -/
def kindOfOther (word : List Char) : Kind :=
  if isNegativeNumber word || word.contains ' ' then .operand else .unknown

/-- A word that starts with two dashes: the beginning of a long spelling, perhaps with a value. -/
def kindOfLong (word : List Char) : Except UsageError Kind :=
  let parts := (splitAtFirst? '=' word).getD (word, [])
  let attached := (splitAtFirst? '=' word).map Prod.snd
  match Flag.startingWith parts.1 with
  | [] => .ok (kindOfOther word)
  | [flag] => .ok (.flag flag false attached)
  | candidates => .error (.ambiguous (String.ofList word) candidates)

/-- A word that starts with one dash: the letter of a flag, with its value or more letters. -/
def kindOfShort (word : List Char) : Kind :=
  match Flag.ofSpelling? (word.take 2) with
  | some flag => .flag flag true (some (word.drop 2))
  | none => kindOfOther word

/-- Whether a spelling has one dash only. -/
def isShort (spelling : List Char) : Bool :=
  (spelling.drop 1).head? != some '-'

/-- What a word before any separator is. -/
def kindOf (word : List Char) : Except UsageError Kind :=
  match word with
  | [] => .ok .operand
  | first :: more =>
    if first ≠ '-' then .ok .operand
    else
      match Flag.ofSpelling? word with
      | some flag => .ok (.flag flag (isShort word) none)
      | none =>
        if more.isEmpty then .ok .operand
        else
          let parts := splitAtFirst? '=' word
          match parts.bind fun parts => (Flag.ofSpelling? parts.1).map (·, parts) with
          | some (flag, parts) => .ok (.flag flag (isShort parts.1) (some parts.2))
          | none => if more.head? = some '-' then kindOfLong word else .ok (kindOfShort word)

/-- The text of the separator. -/
def separator : String := "--"

/-- The words of a command line. -/
def words : List String → Except UsageError (List Word)
  | [] => .ok []
  | text :: more =>
    if text = separator then .ok (⟨text, .separator⟩ :: more.map (⟨·, .operand⟩))
    else do
      let kind ← kindOf text.toList
      let others ← words more
      return ⟨text, kind⟩ :: others

end Reckon.CommandLine
