import ByteMachine.Assembly.Complaint
import ByteMachine.Command.FileError
import ByteMachine.Command.Help
import ByteMachine.Fault
import ByteMachine.Samples

/-!
# Responses

What a command prints and the code it exits with.  A command that fails names
what it was doing and, where there is one, the cause behind it.
-/

namespace ByteMachine

/-- What a command leaves on its two output channels, and its exit code. -/
structure Response where
  exitCode : Nat
  output : String := ""
  errors : String := ""
  deriving DecidableEq, Repr

inductive CommandError where
  /-- The file can not be read. -/
  | unreadable (path : String) (error : FileError)
  /-- The file should be text and is none. -/
  | invalidText (path : String)
  /-- The text in the file does not assemble. -/
  | rejectedSource (path : String) (error : AssemblyError)
  /-- The sample does not assemble. -/
  | rejectedSample (error : AssemblyError)
  /-- The file can not be written. -/
  | unwritable (path : String) (error : FileError)
  /-- There is no sample of this name. -/
  | unknownSample (name : String)
  /-- The program does not fit into memory. -/
  | tooLarge (error : LoadError)
  deriving DecidableEq, Repr

namespace CommandError

/-- What the command was doing when it failed. -/
def context : CommandError → String
  | unreadable path _ => "reading " ++ path
  | invalidText path => "reading " ++ path
  | rejectedSource path _ => "assembling " ++ path
  | rejectedSample _ => "assembling bundled demo"
  | unwritable path _ => "writing " ++ path
  | unknownSample name =>
      "unknown demo `" ++ name ++ "` (try one of: " ++
        String.intercalate ", " (Sample.all.map Sample.name) ++ ")"
  | tooLarge error => error.message

/-- The cause behind a failure, where the context does not say it all. -/
def cause? : CommandError → Option String
  | unreadable _ error => some error.message
  | invalidText _ => some "stream did not contain valid UTF-8"
  | rejectedSource _ error => some error.message
  | rejectedSample error => some error.message
  | unwritable _ error => some error.message
  | unknownSample _ => none
  | tooLarge _ => none

def message (error : CommandError) : String :=
  match error.cause? with
  | none => "Error: " ++ error.context ++ "\n"
  | some cause =>
      "Error: " ++ error.context ++ "\n\nCaused by:\n    " ++ cause ++ "\n"

def response (error : CommandError) : Response where
  exitCode := 1
  errors := error.message

end CommandError

namespace Response

/-- A response behind what was printed before it. -/
def after (response : Response) (errors : String) : Response :=
  { response with errors := errors ++ response.errors }

/-- The response to arguments that make no sense. -/
def misuse : Response where
  exitCode := 2

def version : Response where
  exitCode := 0
  output := "octet 0.1.0\n"

def help (topic : Invocation.Topic) : Response where
  exitCode := 0
  output := Help.text topic

end Response
end ByteMachine
