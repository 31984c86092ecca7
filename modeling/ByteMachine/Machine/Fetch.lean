import ByteMachine.Instruction.Encoding
import ByteMachine.Machine.Basic

/-!
# Fetching

The bytes of an instruction are fetched one at a time at the program counter,
which moves past each byte that was there.  A fetch that fails leaves the
program counter where it failed, and that position is part of what a faulting
machine shows.
-/

namespace ByteMachine
namespace Machine

/-- Fetch the byte at the program counter and move past it. -/
def fetchByte (image : Image) : ByteSource Address Fault UInt8 :=
  ExceptT.mk fun pc =>
    match image.read? pc with
    | none => (.error (.pcOutOfBounds pc), pc)
    | some byte => (.ok byte, pc + 1)

/-- Fetch the instruction at the program counter and move past it. -/
def fetchInstruction (image : Image) :
    ByteSource Address Fault (Instruction Address) := do
  let start ← get
  let byte ← fetchByte image
  match Opcode.ofByte? byte with
  | none => throw (.illegalOpcode byte start)
  | some operation => Instruction.read (fetchByte image) operation

/-- The instruction at the program counter, or the fault of fetching it, and the
program counter afterwards. -/
def fetch (machine : Machine) :
    Except Fault (Instruction Address) × Address :=
  (fetchInstruction machine.image).run.run machine.pc

end Machine
end ByteMachine
