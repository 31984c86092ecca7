import ByteMachine.Command.Plan
import ByteMachine.Output.LogRequest

/-!
# The program

The command line itself: it reads the file that the plan of the command needs,
carries the plan out on the real file system, and prints the response.  The
request for a log is taken from the environment.
-/

namespace ByteMachine
namespace CommandLine

/-- The reason why the operating system refused to read or write a file.  Its
number may come with either sign. -/
def fileError : IO.Error → FileError
  | .noFileOrDirectory .. => .notFound
  | .inappropriateType _ code _ =>
      if code = 21 ∨ code = -21 then .isDirectory else .notDirectory
  | .invalidArgument _ code details =>
      if code = 36 ∨ code = -36 then .nameTooLong else .other details
  | .resourceExhausted _ code details =>
      if code = 28 ∨ code = -28 then .noSpace else .other details
  | error => .other (toString error)

def readFile (path : String) : IO (Except FileError (List UInt8)) := do
  try
    return .ok (← IO.FS.readBinFile path).toList
  catch error =>
    return .error (fileError error)

/-- Put bytes into a file; answers with the reason where that is not possible.
-/
def writeFile (path : String) (bytes : List UInt8) : IO (Option FileError) := do
  try
    IO.FS.writeBinFile path ⟨bytes.toArray⟩
    return none
  catch error =>
    return some (fileError error)

/-- Give a bounded computation more fuel until it answers. -/
partial def await {α : Type} (fuel : Nat) (answer : Nat → Option α) : IO α :=
  match answer fuel with
  | some a => return a
  | none => await (8 * fuel) answer

/-- Carry out a plan on the file system. -/
def carryOut (filter : LogFilter) : Plan → IO Response
  | .respond response => return response
  | .execute program settings =>
      await 4096 fun fuel => executeProgram fuel filter program settings
  | .save path bytes => do
      let failure ← writeFile path bytes
      return responseToSave filter path bytes failure

def answer (request : LogRequest) (words : List String) : IO Response :=
  match Invocation.ofWords? words with
  | none => return .misuse
  | some invocation => do
      let content ←
        match invocation.input? with
        | none => pure (.ok [])
        | some path => readFile path
      let response ← carryOut request.filter (invocation.plan content)
      return response.after request.warnings

end CommandLine
end ByteMachine

/-- Answer the command line that the program was started with. -/
def main (words : List String) : IO UInt32 := do
  let request ← IO.getEnv "RUST_LOG"
  let response ←
    ByteMachine.CommandLine.answer (.ofText (request.getD "")) words
  (← IO.getStdout).putStr response.output
  (← IO.getStderr).putStr response.errors
  return UInt32.ofNat response.exitCode
