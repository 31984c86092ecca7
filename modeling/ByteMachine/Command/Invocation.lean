import ByteMachine.Command.Subcommand
import ByteMachine.Text.Numeral

/-!
# Invocations

What the arguments of the command line ask for.  Arguments are read from left to
right.  An argument that starts with a dash is an option unless it is the dash
alone, an option takes its value from behind an equals sign or from the next
argument, no option is given twice, and behind a double dash nothing is an
option any more.
-/

namespace ByteMachine

inductive ReportFormat where
  | json
  | yaml
  deriving DecidableEq, Repr

/-- The settings of a run. -/
structure RunSettings where
  /-- The number of instructions after which the run is ended. -/
  maxSteps : Option Nat := none
  /-- The format of the report, when one is wanted. -/
  report : Option ReportFormat := none
  deriving DecidableEq, Repr

/-- What a command line asks for. -/
inductive Invocation where
  /-- Run a file. -/
  | run (file : String) (settings : RunSettings)
  /-- Assemble a file into another one. -/
  | assemble (source output : String)
  /-- List a file. -/
  | list (file : String)
  /-- Run a sample. -/
  | sample (name : String) (settings : RunSettings)
  | version
  /-- Show the page of help on a topic. -/
  | help (topic : Invocation.Topic)
  deriving DecidableEq, Repr

namespace Invocation

/-- The arguments of a subcommand read so far. -/
structure Arguments where
  /-- The argument that is no option: a file or a name. -/
  operand : Option String := none
  maxSteps : Option Nat := none
  report : Option ReportFormat := none
  output : Option String := none
  deriving DecidableEq, Repr

/-- Why the reading of arguments ends early. -/
inductive Interruption where
  /-- The arguments make no sense. -/
  | misuse
  /-- Help is asked for. -/
  | help
  deriving DecidableEq, Repr

/-- Set a field that must not have been set before. -/
def setOnce {α : Type} (field : Option α) (value : α) :
    Except Interruption (Option α) :=
  match field with
  | none => .ok (some value)
  | some _ => .error .misuse

/-- The number of steps in the value of an option: an unsigned numeral of 64
bits. -/
def readCount (value : String) : Except Interruption Nat :=
  match Numeral.below? UInt64.size 10 value.toList with
  | some count => .ok count
  | none => .error .misuse

/-- The report format in the value of an option. -/
def readFormat (value : String) : Except Interruption ReportFormat :=
  if value = "json" then .ok .json
  else if value = "yaml" then .ok .yaml
  else .error .misuse

/-- The path in an argument, which must not be empty. -/
def readPath (value : String) : Except Interruption String :=
  if value = "" then .error .misuse else .ok value

namespace Arguments

def setFlag (arguments : Arguments) (flag : Flag) (value : String) :
    Except Interruption Arguments :=
  match flag with
  | .maxSteps => do
      let maxSteps ← setOnce arguments.maxSteps (← readCount value)
      return { arguments with maxSteps := maxSteps }
  | .report => do
      let report ← setOnce arguments.report (← readFormat value)
      return { arguments with report := report }
  | .output => do
      let output ← setOnce arguments.output (← readPath value)
      return { arguments with output := output }

/-- Take an argument that is no option; names may be empty, paths may not. -/
def setOperand (arguments : Arguments) (subcommand : Subcommand)
    (value : String) : Except Interruption Arguments := do
  let value ← if subcommand = .sample then .ok value else readPath value
  let operand ← setOnce arguments.operand value
  return { arguments with operand := operand }

end Arguments

/-- How one argument is to be taken. -/
inductive Shape where
  /-- Everything behind this argument is no option. -/
  | separator
  /-- A request for help. -/
  | help
  /-- An option with its value in the same argument. -/
  | flagWith (flag : Flag) (value : String)
  /-- An option whose value is the next argument. -/
  | flag (flag : Flag)
  /-- An option that the subcommand does not have. -/
  | unknown
  | operand
  deriving DecidableEq, Repr

/-- The shape of an option behind a double dash. -/
def longShape (flags : List Flag) (text : List Char) : Shape :=
  let name := String.ofList (text.takeWhile fun c => c != '=')
  match text.dropWhile fun c => c != '=' with
  | [] =>
      if name = "help" then .help
      else
        match flags.find? fun flag => flag.long = name with
        | some flag => .flag flag
        | none => .unknown
  | _ :: value =>
      match flags.find? fun flag => flag.long = name with
      | some flag => .flagWith flag (String.ofList value)
      | none => .unknown

/-- The shape of an option behind a single dash: its value may follow directly
or behind an equals sign. -/
def shortShape (flags : List Flag) (letter : Char) (text : List Char) : Shape :=
  if letter = 'h' then .help
  else
    match flags.find? fun flag => flag.short = some letter with
    | none => .unknown
    | some flag =>
        match text with
        | [] => .flag flag
        | '=' :: value => .flagWith flag (String.ofList value)
        | value => .flagWith flag (String.ofList value)

def shape (flags : List Flag) (argument : String) : Shape :=
  match argument.toList with
  | ['-', '-'] => .separator
  | '-' :: '-' :: text => longShape flags text
  | '-' :: letter :: text => shortShape flags letter text
  | _ => .operand

/-- Whether an argument can be the value of the option before it: the dash alone
can, any other argument that starts with a dash cannot. -/
def isValue (argument : String) : Bool :=
  match argument.toList with
  | '-' :: _ :: _ => false
  | _ => true

def readArguments (subcommand : Subcommand) (arguments : Arguments) :
    List String → Except Interruption Arguments
  | [] => .ok arguments
  | first :: rest =>
      match shape subcommand.flags first with
      | .separator =>
          rest.foldlM
            (fun arguments value => arguments.setOperand subcommand value)
            arguments
      | .help => .error .help
      | .unknown => .error .misuse
      | .operand => do
          let arguments ← arguments.setOperand subcommand first
          readArguments subcommand arguments rest
      | .flagWith flag value => do
          let arguments ← arguments.setFlag flag value
          readArguments subcommand arguments rest
      | .flag flag =>
          match rest with
          | [] => .error .misuse
          | value :: rest =>
              if isValue value then do
                let arguments ← arguments.setFlag flag value
                readArguments subcommand arguments rest
              else
                .error .misuse

/-- The invocation of a subcommand with its arguments, when none is missing. -/
def ofArguments? (subcommand : Subcommand) (arguments : Arguments) :
    Option Invocation := do
  let operand ← arguments.operand
  let settings : RunSettings := ⟨arguments.maxSteps, arguments.report⟩
  match subcommand with
  | .run => return run operand settings
  | .assemble =>
      let output ← arguments.output
      return assemble operand output
  | .list => return list operand
  | .sample => return sample operand settings

def readSubcommand (subcommand : Subcommand) (rest : List String) :
    Option Invocation :=
  match readArguments subcommand {} rest with
  | .ok arguments => ofArguments? subcommand arguments
  | .error .help => some (help (.subcommand subcommand))
  | .error .misuse => none

/-- The invocation that a request for help makes, about the program or one
topic. -/
def readHelp : List String → Option Invocation
  | [] => some (help .program)
  | [word] => (Topic.ofName? word).map help
  | _ => none

/-- Read the arguments of the program; `none` is a misuse. -/
def ofWords? : List String → Option Invocation
  | [] => none
  | first :: rest =>
      match first.toList with
      | '-' :: 'V' :: _ => some version
      | '-' :: 'h' :: _ => some (help .program)
      | _ =>
          if first = "--version" then some version
          else if first = "--help" then some (help .program)
          else if first = "help" then readHelp rest
          else
            match Subcommand.ofName? first with
            | some subcommand => readSubcommand subcommand rest
            | none => none

end Invocation
end ByteMachine
