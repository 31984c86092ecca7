import ByteMachine.Command.Invocation
import ByteMachine.Command.Path
import ByteMachine.Command.Response
import ByteMachine.Listing
import ByteMachine.Output.LogFilter
import ByteMachine.Report.Json
import ByteMachine.Report.Yaml
import ByteMachine.Session.Run

/-!
# Plans

A command reads at most one file and then does one of three things: it prints
something, it runs a program, or it writes a file.  Which of them it does
depends on its invocation and on the file alone, and is settled here without
touching any file.
-/

namespace ByteMachine

/-- What is left to do once the input file was read. -/
inductive Plan where
  | respond (response : Response)
  | execute (program : List UInt8) (settings : RunSettings)
  | save (path : String) (bytes : List UInt8)
  deriving DecidableEq, Repr

/-- The text that bytes encode in UTF-8, if they do. -/
def textOfBytes? (bytes : List UInt8) : Option String :=
  String.fromUTF8? ⟨bytes.toArray⟩

def assembleFile (path : String) (bytes : List UInt8) :
    Except CommandError (List UInt8) :=
  match textOfBytes? bytes with
  | none => .error (.invalidText path)
  | some source =>
      match assemble source with
      | .ok program => .ok program.bytes
      | .error error => .error (.rejectedSource path error)

/-- The program in a file: assembled when the file holds source text, its bytes
as they are otherwise. -/
def programInFile (path : String) (bytes : List UInt8) :
    Except CommandError (List UInt8) :=
  if Path.isSource path then assembleFile path bytes else .ok bytes

def programOfSample (name : String) : Except CommandError (List UInt8) :=
  match Sample.find? name with
  | none => .error (.unknownSample name)
  | some sample =>
      match assemble sample.source with
      | .ok program => .ok program.bytes
      | .error error => .error (.rejectedSample error)

namespace Invocation

def input? : Invocation → Option String
  | run file _ => some file
  | assemble source _ => some source
  | list file => some file
  | _ => none

/-- The content of the input file, which has to be readable. -/
def require (path : String) (content : Except FileError (List UInt8)) :
    Except CommandError (List UInt8) :=
  content.mapError (CommandError.unreadable path)

/-- The plan of a command whose input file has the given content, or why it
fails. -/
def plan? (content : Except FileError (List UInt8)) :
    Invocation → Except CommandError Plan
  | run file settings => do
      let bytes ← require file content
      let program ← programInFile file bytes
      return .execute program settings
  | assemble source output => do
      let bytes ← require source content
      let program ← assembleFile source bytes
      return .save output program
  | list file => do
      let bytes ← require file content
      return .respond
        { exitCode := 0, output := Listing.text (Listing.lines bytes) }
  | sample name settings => do
      let program ← programOfSample name
      return .execute program settings
  | version => return .respond .version
  | help topic => return .respond (.help topic)

/-- The plan of a command; a failing one only tells of its failure. -/
def plan (content : Except FileError (List UInt8)) (invocation : Invocation) :
    Plan :=
  match invocation.plan? content with
  | .ok plan => plan
  | .error error => .respond error.response

end Invocation

/-- The outcome of a run as the log gives it. -/
def Outcome.logText : Outcome → String
  | halted => "Halted"
  | faulted message => "Faulted(" ++ Text.doubleQuoted message ++ ")"
  | stepLimit => "StepLimit"

/-- The report of a run in the format asked for, if any. -/
def Report.written (report : Report) : Option ReportFormat → String
  | some .json => report.toJson ++ "\n"
  | some .yaml => report.toYaml
  | none => ""

/-- The response after a run: the report on one channel, and on the other the
journal of the run with a closing remark. -/
def responseToRun (filter : LogFilter) (settings : RunSettings)
    (turn : Turn Tape Report) : Response where
  exitCode := if turn.answer.success then 0 else 1
  output := turn.answer.written settings.report
  errors :=
    String.join (turn.journal.toList.map (Event.shown filter)) ++
      filter.line .info .command
        (turn.answer.outcome.logText ++ " after " ++
          Numeral.decimal turn.answer.steps.toNat ++ " steps")

/-- Run a program as a command; `none` when `fuel` steps do not reach the end of
a run without bound. -/
def executeProgram (fuel : Nat) (filter : LogFilter) (program : List UInt8)
    (settings : RunSettings) : Option Response :=
  match runProgram fuel program ({} : Tape) settings.maxSteps with
  | .error error => some (CommandError.response (.tooLarge error))
  | .ok turn => turn.map (responseToRun filter settings)

/-- The response after a file was to be written, with the reason where that
failed. -/
def responseToSave (filter : LogFilter) (path : String) (bytes : List UInt8) :
    Option FileError → Response
  | none =>
      { exitCode := 0
        errors :=
          filter.line .info .command
            ("wrote " ++ Numeral.decimal bytes.length ++ " bytes to " ++ path) }
  | some error => CommandError.response (.unwritable path error)

end ByteMachine
