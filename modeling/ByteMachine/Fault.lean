import ByteMachine.Instruction.Basic

/-!
# Faults

What can stop a machine, and what can keep a program out of it.  A fault is a
cause with its numbers; the wording is one function on causes, used for the
report of a run and for the line that a faulting machine writes.
-/

namespace ByteMachine

/-- Why a sink refused a line. -/
inductive SinkFailure where
  | brokenPipe
  | permissionDenied
  | notFound
  | timedOut
  | wouldBlock
  | unexpectedEnd
  | nothingWritten
  | other
  deriving DecidableEq, Repr

def SinkFailure.message : SinkFailure → String
  | brokenPipe => "broken pipe"
  | permissionDenied => "permission denied"
  | notFound => "entity not found"
  | timedOut => "timed out"
  | wouldBlock => "operation would block"
  | unexpectedEnd => "unexpected end of file"
  | nothingWritten => "write zero"
  | other => "other error"

/-- Why a machine stopped before a halt instruction. -/
inductive Fault where
  /-- A register operand outside the register bank. -/
  | invalidRegister (register : UInt8)
  /-- A jump target outside the image. -/
  | addressOutOfBounds (address : Address)
  /-- A division whose divisor register holds zero. -/
  | divisionByZero (register : UInt8)
  /-- A push with no free cell left. -/
  | stackUnderflow (sp : UInt16)
  /-- A pop from the empty stack. -/
  | stackOverflow (sp : UInt16)
  /-- A byte that names no operation, and where it was fetched. -/
  | illegalOpcode (byte : UInt8) (address : Address)
  /-- A fetch outside the image. -/
  | pcOutOfBounds (pc : Address)
  /-- A printed line that the sink refused. -/
  | output (failure : SinkFailure)
  deriving DecidableEq, Repr

def Fault.message : Fault → String
  | invalidRegister register =>
      "invalid register " ++ Numeral.decimal register.toNat
  | addressOutOfBounds address =>
      "invalid address 0x" ++ Numeral.hex 4 address.toNat
  | divisionByZero register =>
      "can not divide when register " ++ Numeral.decimal register.toNat ++
        " is 0"
  | stackUnderflow sp =>
      "stack underflow: no free slot below sp " ++ Numeral.decimal sp.toNat
  | stackOverflow sp =>
      "stack overflow: pop past the empty marker at sp " ++
        Numeral.decimal sp.toNat
  | illegalOpcode byte address =>
      "illegal opcode 0x" ++ Numeral.hex 2 byte.toNat ++ " at 0x" ++
        Numeral.hex 4 address.toNat
  | pcOutOfBounds pc =>
      "program counter 0x" ++ Numeral.hex 4 pc.toNat ++ " is outside memory"
  | output failure => "diagnostic output failed: " ++ failure.message

/-- A program that does not fit into memory. -/
structure LoadError where
  /-- The number of bytes of the program. -/
  size : Nat
  /-- The number of cells of the memory. -/
  capacity : Nat
  deriving DecidableEq, Repr

def LoadError.message (error : LoadError) : String :=
  "program size (" ++ Numeral.decimal error.size ++
    " bytes) exceeds the memory size (" ++
    Numeral.decimal error.capacity ++ " bytes)"

end ByteMachine
