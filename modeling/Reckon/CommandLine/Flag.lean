/-!
# Flags of the command line

The flags, how they are spelled, and how many words they take.
-/
namespace Reckon.CommandLine

/-- A flag of the command line. -/
inductive Flag where
  | help
  | verbose
  | precision
  | define
  | expression
  | prompt
  | list
  deriving DecidableEq, Repr

/-- How many of the following words a flag takes. -/
inductive Operands where
  | none
  | one
  | atMostOne
  /-- All of them up to a separator, whatever they look like. -/
  | rest
  deriving DecidableEq, Repr

namespace Flag

/-- The flags in the order in which they are declared and offered. -/
def all : List Flag := [help, verbose, precision, define, expression, prompt, list]

def short : Flag → List Char
  | .help => ['-', 'h']
  | .verbose => ['-', 'v']
  | .precision => ['-', 'k']
  | .define => ['-', 'D']
  | .expression => ['-', 'e']
  | .prompt => ['-', 'p']
  | .list => ['-', 'l']

def long : Flag → List Char
  | .help => "--help".toList
  | .verbose => "--verbose".toList
  | .precision => "--precision".toList
  | .define => "--define".toList
  | .expression => "--expression".toList
  | .prompt => "--prompt".toList
  | .list => "--list".toList

def operands : Flag → Operands
  | .help => .none
  | .verbose => .none
  | .precision => .one
  | .define => .one
  | .expression => .rest
  | .prompt => .atMostOne
  | .list => .none

/-- How messages name a flag. -/
def shown (flag : Flag) : String :=
  String.ofList (flag.short ++ '/' :: flag.long)

/-- The flag with a given spelling. -/
def ofSpelling? (spelling : List Char) : Option Flag :=
  all.find? fun flag => flag.short == spelling || flag.long == spelling

/-- The flags whose long spelling starts as given. -/
def startingWith (start : List Char) : List Flag :=
  all.filter fun flag => start.isPrefixOf flag.long

end Flag

end Reckon.CommandLine
