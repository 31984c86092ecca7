import ByteMachine.Command.Directory
import ByteMachine.Command.Plan
import ByteMachine.Output.LogRequest
import ByteMachine.Text.Shown

/-!
# Commands

The whole effect of a command line: from its arguments, the request for a log
and the files around it to its response and the files afterwards.  Only
assembling writes a file, and only after everything else has succeeded.
-/

namespace ByteMachine

/-- The content of the file that a command reads; a command without such a file
has nothing to read. -/
def Invocation.content (directory : Directory) (invocation : Invocation) :
    Except FileError (List UInt8) :=
  match invocation.input? with
  | none => .ok []
  | some path => directory.read path

/-- The response after bytes were written to a device. -/
def Device.respond (filter : LogFilter) (path : String) (bytes : List UInt8) :
    Device → Response
  | full =>
      responseToSave filter path bytes
        (if bytes.isEmpty then none else some .noSpace)
  | output =>
      { responseToSave filter path bytes none with output := Text.shown bytes }
  | errors => (responseToSave filter path bytes none).after (Text.shown bytes)
  | null => responseToSave filter path bytes none
  | input => responseToSave filter path bytes none

/-- Carry out a plan in a directory. -/
def Plan.carryOut (fuel : Nat) (filter : LogFilter) (directory : Directory) :
    Plan → Option (Response × Directory)
  | respond response => some (response, directory)
  | execute program settings =>
      (executeProgram fuel filter program settings).map fun response =>
        (response, directory)
  | save path bytes =>
      match directory.destination path with
      | .ok (.file place) =>
          some
            (responseToSave filter path bytes none, directory.put place bytes)
      | .ok (.device device) =>
          some (device.respond filter path bytes, directory)
      | .error error =>
          some (responseToSave filter path bytes (some error), directory)

/-- Carry out a command line in a directory; `none` when it runs a program
without bound and `fuel` steps do not reach the end of that run.  Complaints
about the request for a log come first, except that nothing is printed where the
arguments make no sense. -/
def runCommand (fuel : Nat) (request : LogRequest) (directory : Directory)
    (words : List String) : Option (Response × Directory) :=
  match Invocation.ofWords? words with
  | none => some (.misuse, directory)
  | some invocation =>
      let plan := invocation.plan (invocation.content directory)
      (plan.carryOut fuel request.filter directory).map
        fun (response, directory) =>
          (response.after request.warnings, directory)

end ByteMachine
