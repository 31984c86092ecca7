/-!
# Subcommands

The words of the command line: the subcommands, the options each of them has,
and what the pages of help say about them.
-/

namespace ByteMachine
namespace Invocation

/-- The options that take a value. -/
inductive Flag where
  | maxSteps
  | report
  | output
  deriving DecidableEq, Repr

namespace Flag

/-- The name of an option behind a double dash. -/
def long : Flag → String
  | maxSteps => "max-steps"
  | report => "report"
  | output => "output"

/-- The letter of an option behind a single dash. -/
def short : Flag → Option Char
  | output => some 'o'
  | _ => none

/-- What stands for the value of an option on a page of help. -/
def placeholder : Flag → String
  | maxSteps => "COUNT"
  | report => "FORMAT"
  | output => "FILE"

def isRequired : Flag → Bool
  | output => true
  | _ => false

def about : Flag → String
  | maxSteps => "Stop after this many instructions"
  | report =>
      "Print a machine report to stdout after the run " ++
        "[possible values: json, yaml]"
  | output => ""

end Flag

inductive Subcommand where
  | run
  | assemble
  | list
  | sample
  deriving DecidableEq, Repr

namespace Subcommand

def all : List Subcommand :=
  [run, assemble, list, sample]

/-- The word that selects a subcommand. -/
def name : Subcommand → String
  | run => "run"
  | assemble => "asm"
  | list => "disasm"
  | sample => "demo"

/-- The subcommand that a word selects. -/
def ofName? (word : String) : Option Subcommand :=
  all.find? fun subcommand => subcommand.name = word

def flags : Subcommand → List Flag
  | run => [.maxSteps, .report]
  | assemble => [.output]
  | list => []
  | sample => [.maxSteps, .report]

/-- What stands for the operand of a subcommand on a page of help. -/
def placeholder : Subcommand → String
  | run => "FILE"
  | assemble => "SOURCE"
  | list => "FILE"
  | sample => "NAME"

def about : Subcommand → String
  | run => "Run a bytecode file, or a `.asm` source file"
  | assemble => "Assemble source into a bytecode file"
  | list => "Print a listing of a bytecode file"
  | sample => "Run one of the bundled programs"

end Subcommand

/-- What a request for help is about. -/
inductive Topic where
  /-- The program as a whole. -/
  | program
  | subcommand (subcommand : Subcommand)
  /-- The request for help itself. -/
  | help
  deriving DecidableEq, Repr

/-- The topic that a word names. -/
def Topic.ofName? (word : String) : Option Topic :=
  if word = "help" then some help else (Subcommand.ofName? word).map subcommand

end Invocation
end ByteMachine
