import Reckon.Calculator
import Reckon.CommandLine.Word

/-!
# Options of a run

The flags of a command line are carried out in order; each takes its value from its own word or
from those behind it. The first error ends the reading, and so does the flag for help. Words that
belong to no flag are refused at the end.
-/
namespace Reckon.CommandLine

/-- What a run of the program is asked to do. -/
structure Options where
  verbose : Bool
  precision : Precision
  /-- The variables to define, in order; nothing stands for a definition without a value. -/
  definitions : List (Option (String × Float))
  /-- The expressions to evaluate, if any are given. -/
  expressions : Option (List String)
  /-- The prompt to ask for expressions with, if it is to be shown. -/
  prompt : Option String
  /-- Whether to list the builtin names instead. -/
  listing : Bool
  deriving DecidableEq

def Options.initial : Options := ⟨false, .exact, [], none, none, false⟩

/-- The prompt that is shown if none is given. -/
def defaultPrompt : String := "> "

/-- Why the reading of a command line ends before its end. -/
inductive Stop where
  | help
  | error (e : UsageError)
  deriving DecidableEq, Repr

/-- A flag with the values it takes. -/
structure Request where
  flag : Flag
  values : List String
  deriving DecidableEq, Repr

namespace Request

/-- The precision that the values of a request stand for. No value is an empty list, with which
nothing can be rounded. -/
def precision : List String → Except UsageError Precision
  | [] => .ok (.ofDatum (.list []))
  | value :: _ =>
    match Number.readInteger? value.toList with
    | some places => .ok (.places places)
    | none => .error (.notInteger .precision value)

/-- The definition that the values of a request hold, or nothing if there are none. -/
def defined? : List String → Except UsageError (Option (String × Float))
  | [] => .ok none
  | value :: _ => ((definition value).map some).mapError (.badDefinition .define)

/-- Carries out a request. -/
def apply (request : Request) (o : Options) : Except Stop Options :=
  match request.flag with
  | .help => .error .help
  | .verbose => .ok { o with verbose := true }
  | .list => .ok { o with listing := true }
  | .precision => do
    let precision ← (Request.precision request.values).mapError .error
    return { o with precision }
  | .define => do
    let defined ← (defined? request.values).mapError .error
    return { o with definitions := o.definitions ++ [defined] }
  | .expression =>
    if o.prompt.isSome then .error (.error (.conflict .expression .prompt))
    else .ok { o with expressions := some request.values }
  | .prompt =>
    if o.expressions.isSome then .error (.error (.conflict .prompt .expression))
    else .ok { o with prompt := some (request.values.headD defaultPrompt) }

end Request

/-- The values that a flag takes from the words behind it, and the words left. -/
def takeOperands (flag : Flag) (behind : List Word) : Except Stop (List String × List Word) :=
  match flag.operands with
  | .none => .ok ([], behind)
  | .one =>
    match behind with
    | ⟨text, .operand⟩ :: others => .ok ([text], others)
    | _ => .error (.error (.missingOperand flag))
  | .atMostOne =>
    match behind with
    | ⟨text, .operand⟩ :: others => .ok ([text], others)
    | _ => .ok ([], behind)
  | .rest =>
    let taken := behind.takeWhile (·.kind != .separator)
    .ok (taken.map Word.text, behind.drop taken.length)

/-- The values of a flag that takes some, from what is attached to it. An attached separator stands
for no value, unless the flag takes whatever follows. -/
def attachedValues (flag : Flag) (value : String) : List String :=
  if flag.operands ≠ .rest ∧ value = separator then [] else [value]

/-- What comes of one word: the requests in it, and the words left behind it. -/
structure Reading where
  requests : List Request
  behind : List Word

/-- The reading of one more flag in the same word, which takes no value. -/
def Reading.after (flag : Flag) (reading : Reading) : Reading :=
  { reading with requests := ⟨flag, []⟩ :: reading.requests }

/-- Reads a flag with the words behind it. -/
def readAlone (flag : Flag) (behind : List Word) : Except Stop Reading :=
  (takeOperands flag behind).map fun taken => ⟨[⟨flag, taken.1⟩], taken.2⟩

/-- Reads a flag with letters attached to it. They are its value or, for a flag with one dash that
takes none, more flags. -/
def readLetters (behind : List Word) : List Char → Flag → Bool → Except Stop Reading
  | [], flag, _ =>
    if flag.operands ≠ .none then .ok ⟨[⟨flag, attachedValues flag ""⟩], behind⟩
    else .error (.error (.superfluous flag ""))
  | letter :: more, flag, short =>
    let value := String.ofList (letter :: more)
    if flag.operands ≠ .none then .ok ⟨[⟨flag, attachedValues flag value⟩], behind⟩
    else if !short then .error (.error (.superfluous flag value))
    else
      match Flag.ofSpelling? ['-', letter] with
      | none => .error (.error (.superfluous flag value))
      | some next =>
        let others := if more.isEmpty then readAlone next behind else readLetters behind more next true
        others.map (Reading.after flag)

/-- Reads a flag with what is attached to it, or with the words behind it. -/
def readFlag (flag : Flag) (short : Bool) (behind : List Word) :
    Option (List Char) → Except Stop Reading
  | none => readAlone flag behind
  | some attached => readLetters behind attached flag short

/-- Carries out requests in order. -/
def applyAll (o : Options) : List Request → Except Stop Options
  | [] => .ok o
  | request :: more => do applyAll (← request.apply o) more

/-- Reads at most `count` words, and returns the options with the words that no flag takes. -/
def readWords : Nat → Options → List Word → Except Stop (Options × List String)
  | 0, o, _ => .ok (o, [])
  | _ + 1, o, [] => .ok (o, [])
  | count + 1, o, word :: behind =>
    match word.kind with
    | .flag flag short attached => do
      let reading ← readFlag flag short behind attached
      let next ← applyAll o reading.requests
      readWords count next reading.behind
    | _ => do
      let result ← readWords count o behind
      return (result.1, word.text :: result.2)

/-- The options that a command line asks for. -/
def options (args : List String) : Except Stop Options := do
  let all ← (words args).mapError .error
  let result ← readWords all.length .initial all
  if result.2.isEmpty then return result.1 else throw (.error (.unrecognized result.2))

end Reckon.CommandLine
