import ByteMachine.Storage.Image
import ByteMachine.Storage.OperandStack
import ByteMachine.Storage.RegisterBank

/-!
# The state of a machine

A machine owns its memory, registers and stack.  Loading a program arms it and
touches nothing but the image, the running flag and the recorded fault: the
program counter, the registers, the stack and the step count go on from where
they were until the machine is reset.
-/

namespace ByteMachine

/-- A machine between two instructions. -/
structure Machine where
  image : Image
  registers : RegisterBank
  stack : OperandStack
  /-- The address of the next byte to fetch. -/
  pc : Address
  running : Bool
  /-- The instructions completed since the last reset. -/
  steps : UInt64
  /-- The fault that stopped the machine, if one did. -/
  lastFault : Option Fault
  deriving DecidableEq

namespace Machine

/-- The machine with everything zero, stopped. -/
def initial : Machine where
  image := Image.blank
  registers := RegisterBank.zero
  stack := OperandStack.empty
  pc := 0
  running := false
  steps := 0
  lastFault := none

/-- Load a program and arm the machine. -/
def load (machine : Machine) (program : List UInt8) :
    Except LoadError Machine := do
  let image ← machine.image.load program
  return { machine with image := image, running := true, lastFault := none }

/-- Clear all parts of a machine. -/
def reset (machine : Machine) : Machine where
  image := machine.image.clear
  registers := machine.registers.clear
  stack := machine.stack.clear
  pc := 0
  running := false
  steps := 0
  lastFault := none

/-- No part is forgotten. -/
theorem reset_eq_initial (machine : Machine) : machine.reset = initial := rfl

end Machine
end ByteMachine
