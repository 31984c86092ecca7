import ByteMachine.Assembly.Operand
import ByteMachine.Instruction.Encoding

/-!
# Statements

A statement is an instruction whose jump target may be a label, or a row of raw
bytes.  It is read from its words: the mnemonic in any letter case, then the
operands.  The number of operands is settled before any of them is read, and
they are read from left to right.
-/

namespace ByteMachine

/-- What one line of source text puts into the image. -/
inductive Statement where
  | instruction (instruction : Instruction Target)
  /-- Raw bytes. -/
  | data (bytes : List UInt8)
  deriving DecidableEq, Repr

/-- The number of operand words of an operation: an address is one word although
it takes two bytes. -/
def Opcode.operandWords : Opcode → Nat
  | jump => 1
  | jumpIfZero => 2
  | operation => operation.operandBytes

namespace Statement

/-- The mnemonic of raw bytes. -/
def dataMnemonic : String := "DB"

def size : Statement → Nat
  | instruction i => i.size
  | data bytes => bytes.length

def readOperands : Opcode → List String → Except Complaint (Instruction Target)
  | .halt, [] => return .halt
  | .load, [register, value] => do
      let register ← Operand.register register
      let value ← Operand.byte value
      return .load register value
  | .arithmetic operation, [left, right, destination] => do
      let left ← Operand.register left
      let right ← Operand.register right
      let destination ← Operand.register destination
      return .arithmetic operation left right destination
  | .jump, [target] => do
      let target ← Operand.target target
      return .jump target
  | .jumpIfZero, [register, target] => do
      let register ← Operand.register register
      let target ← Operand.target target
      return .jumpIfZero register target
  | .push, [register] => do
      let register ← Operand.register register
      return .push register
  | .pop, [register] => do
      let register ← Operand.register register
      return .pop register
  | .print, [register] => do
      let register ← Operand.register register
      return .print register
  | operation, operands =>
      if operands.length < operation.operandWords then
        throw (.missingOperand operation.mnemonic)
      else
        throw (.unexpectedOperand operation.mnemonic)

/-- Read a row of raw bytes, which must not be empty. -/
def readData (operands : List String) : Except Complaint (List UInt8) :=
  if operands.isEmpty then
    .error (.missingOperand dataMnemonic)
  else
    operands.mapM Operand.byte

def read (mnemonic : String) (operands : List String) :
    Except Complaint Statement :=
  if Text.capitals mnemonic = dataMnemonic then
    (readData operands).map .data
  else
    match Opcode.ofMnemonic? mnemonic with
    | none => .error (.unknownInstruction mnemonic)
    | some operation => (readOperands operation operands).map .instruction

end Statement
end ByteMachine
