import ByteMachine.Text.Blank

/-!
# Operation codes

Every instruction starts with one byte that names its operation and thereby
fixes the number of operand bytes that follow.  The four arithmetic operations
share their operand layout, so they are one opcode with a parameter; the
numbering of the bytes is the order of `Opcode.all`.
-/

namespace ByteMachine

/-- The binary operations on register contents. -/
inductive Arithmetic where
  | add
  | sub
  | mul
  | div
  deriving DecidableEq, Repr

inductive Opcode where
  | halt
  | load
  | arithmetic (operation : Arithmetic)
  | jump
  | jumpIfZero
  | push
  | pop
  | print
  deriving DecidableEq, Repr

namespace Opcode

/-- All operations in the order of their bytes: the byte of an operation is its
position. -/
def all : List Opcode :=
  [halt, load, arithmetic .add, arithmetic .sub, arithmetic .mul,
    arithmetic .div, jump, jumpIfZero, push, pop, print]

/-- The byte that starts every instruction with this operation. -/
def byte : Opcode → UInt8
  | halt => 0
  | load => 1
  | arithmetic .add => 2
  | arithmetic .sub => 3
  | arithmetic .mul => 4
  | arithmetic .div => 5
  | jump => 6
  | jumpIfZero => 7
  | push => 8
  | pop => 9
  | print => 10

/-- The operation that a byte names, if it names one. -/
def ofByte? (b : UInt8) : Option Opcode :=
  all[b.toNat]?

/-- The number of operand bytes after the operation's own byte. -/
def operandBytes : Opcode → Nat
  | halt => 0
  | load => 2
  | arithmetic _ => 3
  | jump => 2
  | jumpIfZero => 3
  | push => 1
  | pop => 1
  | print => 1

/-- The name of the operation in source text and listings. -/
def mnemonic : Opcode → String
  | halt => "HALT"
  | load => "LOAD"
  | arithmetic .add => "ADD"
  | arithmetic .sub => "SUB"
  | arithmetic .mul => "MUL"
  | arithmetic .div => "DIV"
  | jump => "JMP"
  | jumpIfZero => "JZ"
  | push => "PUSH"
  | pop => "POP"
  | print => "PRINT"

/-- The operation with a given name, in any case of the ASCII letters. -/
def ofMnemonic? (name : String) : Option Opcode :=
  all.find? fun operation => operation.mnemonic = Text.capitals name

@[simp]
theorem ofByte?_byte (operation : Opcode) :
    ofByte? operation.byte = some operation := by
  rcases operation with _ | _ | (_ | _ | _ | _) | _ | _ | _ | _ | _ <;> rfl

theorem byte_of_ofByte?
    {b : UInt8} {operation : Opcode} (h : ofByte? b = some operation) :
    operation.byte = b := by
  have hb : b.toNat < all.length := (List.getElem?_eq_some_iff.mp h).1
  have hcases : b = 0 ∨ b = 1 ∨ b = 2 ∨ b = 3 ∨ b = 4 ∨ b = 5 ∨ b = 6 ∨
      b = 7 ∨ b = 8 ∨ b = 9 ∨ b = 10 := by
    simp only [← UInt8.toNat_inj]
    simp only [all, List.length_cons, List.length_nil] at hb
    simp only [UInt8.reduceToNat]
    omega
  rcases hcases with
    rfl | rfl | rfl | rfl | rfl | rfl | rfl | rfl | rfl | rfl | rfl
  all_goals
    cases h
    rfl

end Opcode
end ByteMachine
