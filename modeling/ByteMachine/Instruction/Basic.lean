import ByteMachine.Instruction.Opcode
import ByteMachine.Text.Numeral

/-!
# Instructions

An instruction is an operation with its operands.  The type of jump targets is a
parameter: in an image and on the machine a target is an address, in source text
it may still be a name that has to be resolved.  Register operands are raw
bytes, because an image can hold any byte there; only execution compares them
with the size of the register bank.
-/

namespace ByteMachine

/-- Addresses are words of sixteen bits. -/
abbrev Address := UInt16

/-- An instruction whose jump targets are of type `τ`. -/
inductive Instruction (τ : Type) where
  /-- Stop the machine. -/
  | halt
  /-- Put a constant into a register. -/
  | load (register value : UInt8)
  /-- Combine the contents of two registers into a third. -/
  | arithmetic (operation : Arithmetic) (left right destination : UInt8)
  /-- Go on at the target. -/
  | jump (target : τ)
  /-- Go on at the target when the register holds zero. -/
  | jumpIfZero (register : UInt8) (target : τ)
  /-- Put the content of a register on the stack. -/
  | push (register : UInt8)
  /-- Take the top of the stack into a register. -/
  | pop (register : UInt8)
  /-- Write the content of a register as a line of output. -/
  | print (register : UInt8)
  deriving DecidableEq, Repr

namespace Instruction

variable {τ : Type}

def opcode : Instruction τ → Opcode
  | halt => .halt
  | load .. => .load
  | arithmetic operation .. => .arithmetic operation
  | jump _ => .jump
  | jumpIfZero .. => .jumpIfZero
  | push _ => .push
  | pop _ => .pop
  | print _ => .print

/-- The number of bytes of the encoded instruction, its operation byte included.
-/
def size (instruction : Instruction τ) : Nat :=
  1 + instruction.opcode.operandBytes

/-- Replace the jump target by what `f` makes of it, or fail as `f` does. -/
def resolve {ε υ : Type} (f : τ → Except ε υ) :
    Instruction τ → Except ε (Instruction υ)
  | halt => .ok halt
  | load register value => .ok (load register value)
  | arithmetic operation left right destination =>
      .ok (arithmetic operation left right destination)
  | jump target => (f target).map jump
  | jumpIfZero register target => (f target).map (jumpIfZero register)
  | push register => .ok (push register)
  | pop register => .ok (pop register)
  | print register => .ok (print register)

/-- The operand column of a register: the letter `r` and its number. -/
def registerText (register : UInt8) : String :=
  "r" ++ Numeral.decimal register.toNat

/-- The operand column of an address: four capital hexadecimal digits behind
`0x`. -/
def addressText (address : Address) : String :=
  "0x" ++ Numeral.hexCapital 4 address.toNat

/-- The operands of an instruction as a listing writes them. -/
def operandTexts : Instruction Address → List String
  | halt => []
  | load register value => [registerText register, Numeral.decimal value.toNat]
  | arithmetic _ left right destination =>
      [registerText left, registerText right, registerText destination]
  | jump target => [addressText target]
  | jumpIfZero register target => [registerText register, addressText target]
  | push register => [registerText register]
  | pop register => [registerText register]
  | print register => [registerText register]

/-- An instruction as one line of source text: the mnemonic, a blank, and the
operands with a comma and a blank between them. -/
def text (instruction : Instruction Address) : String :=
  match instruction.operandTexts with
  | [] => instruction.opcode.mnemonic
  | operands =>
      instruction.opcode.mnemonic ++ " " ++ String.intercalate ", " operands

end Instruction
end ByteMachine
