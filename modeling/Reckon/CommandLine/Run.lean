import Reckon.CommandLine.Options
import Reckon.Session

/-!
# Running the program

A run evaluates lines one after another, whether they come from the command line, from the input
or from a prompt. A line gives one record, and a faulty one does not stop the rest.
-/
namespace Reckon.CommandLine

/-- What a run writes, line by line. -/
structure Transcript where
  output : List String
  errors : List String
  deriving DecidableEq, Repr

namespace Transcript

def empty : Transcript := ⟨[], []⟩

def append (a b : Transcript) : Transcript := ⟨a.output ++ b.output, a.errors ++ b.errors⟩

instance : Append Transcript := ⟨append⟩

/-- A diagnostic line, which is written only by a verbose run. -/
def log (verbose : Bool) (source text : String) : Transcript :=
  if verbose then ⟨[], [s!"DEBUG:{source}:{text}"]⟩ else empty

end Transcript

/-- How a run ends. -/
inductive Ending where
  | exit (status : Nat)
  /-- A breakdown outside all expressions. -/
  | escaped (breakdown : Breakdown)
  deriving DecidableEq, Repr

/-- What a run writes and how it ends. -/
structure Report where
  transcript : Transcript
  ending : Ending
  deriving DecidableEq, Repr

/-- What comes next from the place that lines are read from. -/
inductive Entry where
  | line (text : String)
  | interrupt
  deriving DecidableEq, Repr

/-- Lines that end a run. -/
def quitLines : List String := ["exit", "quit", "exit()", "quit()"]

/-- How a value is shown. -/
def valueText (x : Float) : String := String.ofList (Number.text x)

/-- The record of one line, and the calculator after it, or the breakdown that ends the run. -/
def evaluateLine (verbose : Bool) (c : Calculator) (line : String) :
    Except Breakdown (Transcript × Calculator) :=
  let after := c.afterwards line
  match c.evaluate line with
  | .ok value =>
    let result := s!"{line} = {valueText value}"
    .ok (.log verbose "mathexpr.evaluator" result ++ ⟨[result], []⟩, after)
  | .error (.fault fault) =>
    .ok (.log verbose "mathexpr.cli" s!"Failed to evaluate {quoted line}" ++
      ⟨[], [fault.message]⟩, after)
  | .error (.breakdown b) => .error b

/-- A line without the blanks around it. -/
def stripped (line : String) : String :=
  String.ofList (Text.strip line.toList)

/-- What one line does to a run. -/
inductive Turn where
  /-- The run goes on. -/
  | next (record : Transcript) (after : Calculator)
  | finish (ending : Ending)

/-- Takes a line as it comes: a blank one does nothing, and some words end the run. -/
def turn (verbose : Bool) (c : Calculator) (text : String) : Turn :=
  let line := stripped text
  if line.isEmpty then .next .empty c
  else if line ∈ quitLines then .finish (.exit 0)
  else
    match evaluateLine verbose c line with
    | .ok (record, after) => .next record after
    | .error breakdown => .finish (.escaped breakdown)

/-- Takes lines up to the first that ends the run. `asking` is written before each of them. -/
def evaluateLines (verbose : Bool) (asking : Transcript) (c : Calculator) : List Entry → Report
  | [] => ⟨asking, .exit 0⟩
  | .interrupt :: _ => ⟨asking, .exit 1⟩
  | .line text :: more =>
    match turn verbose c text with
    | .finish ending => ⟨asking, ending⟩
    | .next record after =>
      let others := evaluateLines verbose asking after more
      { others with transcript := asking ++ record ++ others.transcript }

/-- Splits a text into lines, which end at a line feed, a carriage return or both. The last line
need not end. `current` holds the characters of the present line in reverse. -/
def splitLines (current : List Char) : List Char → List String
  | [] => if current.isEmpty then [] else [String.ofList current.reverse]
  | '\r' :: '\n' :: more => String.ofList current.reverse :: splitLines [] more
  | c :: more =>
    if c = '\r' ∨ c = '\n' then String.ofList current.reverse :: splitLines [] more
    else splitLines (c :: current) more

/-- The lines of an input text. -/
def inputLines (text : String) : List String :=
  splitLines [] text.toList

/-- Lines typed at a prompt: a carriage return or a line feed ends a line, and U+0003 interrupts.
U+0004 ends the input on an empty line and does nothing on another. `current` holds the characters
of the present line in reverse. -/
def typedEntries (current : List Char) : List Char → List Entry
  | [] => []
  | c :: more =>
    if c = '\r' ∨ c = '\n' then .line (String.ofList current.reverse) :: typedEntries [] more
    else if c = '\x04' then if current.isEmpty then [] else typedEntries current more
    else if c = '\x03' then [.interrupt]
    else typedEntries (c :: current) more

/-- Where lines come from if none are given on the command line. -/
structure Source where
  /-- The text of the input. -/
  input : String
  /-- The keys typed at the prompt. -/
  keys : String

/-- The prompt that lines are asked for with, if no expressions are given. An empty one is none. -/
def Options.prompting (o : Options) : Option String :=
  o.prompt.filter fun prompt => !prompt.isEmpty

/-- What is written before each line that is asked for. -/
def asking (verbose : Bool) : Transcript :=
  .log verbose "asyncio" "Using selector: EpollSelector"

/-- The entries of a run, and what is written before each. -/
def entries (o : Options) (source : Source) : Transcript × List Entry :=
  match o.expressions, o.prompting with
  | some expressions, _ => (.empty, expressions.map .line)
  | none, some _ => (asking o.verbose, typedEntries [] source.keys.toList)
  | none, none => (.empty, (inputLines source.input).map .line)

/-- The variables that a run defines, as diagnostics and in its calculator. A definition without a
value ends the run. -/
def defineAll (verbose : Bool) (c : Calculator) :
    List (Option (String × Float)) → Transcript × Except Breakdown Calculator
  | [] => (.empty, .ok c)
  | none :: _ => (.empty, .error .emptyDefinition)
  | some (name, value) :: more =>
    let record :=
      Transcript.log verbose "mathexpr.evaluator" s!"Set variable {name} = {valueText value}"
    let others := defineAll verbose
      { c with bindings := c.bindings.setVariable name value } more
    (record ++ others.1, others.2)

/-- What a run writes before its first line, and the calculator that it starts with. -/
def prepare (o : Options) : Transcript × Except Breakdown Calculator :=
  defineAll o.verbose (.new o.precision) o.definitions

/-- Evaluates all lines of a run. -/
def execute (o : Options) (source : Source) : Report :=
  let defined := prepare o
  let given := entries o source
  match defined.2 with
  | .error breakdown => ⟨defined.1, .escaped breakdown⟩
  | .ok c =>
    let report := evaluateLines o.verbose given.1 c given.2
    { report with transcript := defined.1 ++ report.transcript }

/-- The names of all builtin functions and constants. -/
def listing : Transcript :=
  ⟨[" ".intercalate ("functions:" :: Builtin.functionNames),
    " ".intercalate ("constants:" :: Builtin.constantNames)], []⟩

def usage : List String :=
  ["usage: mathexpr [-h] [-v] [-k PRECISION] [-D NAME=VALUE]",
   "                [-e ... | -p [PROMPT]] [-l]"]

def help : List String :=
  usage ++
  ["",
   "Mathematical expression evaluator",
   "",
   "options:",
   "  -h, --help            show this help message and exit",
   "  -v, --verbose",
   "  -k PRECISION, --precision PRECISION",
   "                        round results to this many decimal places",
   "  -D NAME=VALUE, --define NAME=VALUE",
   "  -e ..., --expression ...",
   "  -p [PROMPT], --prompt [PROMPT]",
   "  -l, --list"]

/-- The status of a run with a faulty command line. -/
def usageStatus : Nat := 2

/-- What a run is asked to do, or its report if it ends without evaluating anything. -/
def plan (args : List String) : Except Report Options :=
  match options args with
  | .error .help => .error ⟨⟨help, []⟩, .exit 0⟩
  | .error (.error e) =>
    .error ⟨⟨[], usage ++ [s!"mathexpr: error: {e.message}"]⟩, .exit usageStatus⟩
  | .ok o => if o.listing then .error ⟨listing, .exit 0⟩ else .ok o

/-- Runs the program. -/
def run (args : List String) (source : Source) : Report :=
  match plan args with
  | .error report => report
  | .ok o => execute o source

end Reckon.CommandLine
