import ByteMachine.Machine.Fetch
import ByteMachine.Output.Journal
import ByteMachine.Output.Sink

/-!
# Performing an instruction

An instruction is performed in place: it reads and writes the machine as it goes
along, and what it wrote before a fault stays written.  That a fault leaves no
half of an instruction behind is therefore a matter of the order in which each
instruction proceeds.  All of them check their register operands first, in the
order of their encoding, then the zero divisor or the jump target, which is
checked whether or not the jump is taken, and write at the end.
-/

namespace ByteMachine

/-- What a step says about the machine afterwards. -/
inductive Status where
  | running
  | halted
  deriving DecidableEq, Repr

/-- A machine during a step, its sink, and the events of the step so far. -/
structure Progress (σ : Type) where
  machine : Machine
  sink : σ
  events : List Event

namespace Progress

variable {σ : Type}

def withPc (progress : Progress σ) (pc : Address) : Progress σ :=
  { progress with machine := { progress.machine with pc := pc } }

def withRegisters (progress : Progress σ) (registers : RegisterBank) :
    Progress σ :=
  { progress with machine := { progress.machine with registers := registers } }

def withStack (progress : Progress σ) (stack : OperandStack) : Progress σ :=
  { progress with machine := { progress.machine with stack := stack } }

def withEvent (progress : Progress σ) (event : Event) : Progress σ :=
  { progress with events := progress.events ++ [event] }

end Progress

/-- Work on a machine and its sink. -/
abbrev Action (σ : Type) := Change (Progress σ)

/-- The line that prints a value. -/
def printedLine (value : UInt8) : String :=
  Numeral.decimal value.toNat ++ "\n"

namespace Action

variable {σ α : Type}

def onPc (change : Change Address α) : Action σ α :=
  change.within (fun progress => progress.machine.pc) Progress.withPc

def onRegisters (change : Change RegisterBank α) : Action σ α :=
  change.within (fun progress => progress.machine.registers)
    Progress.withRegisters

def onStack (change : Change OperandStack α) : Action σ α :=
  change.within (fun progress => progress.machine.stack) Progress.withStack

def readRegister (register : UInt8) : Action σ UInt8 := do
  let progress ← get
  progress.machine.registers.read register

def checkRegister (register : UInt8) : Action σ Unit := do
  let _ ← RegisterBank.index register
  return

def say (said : Remark) : Action σ Unit :=
  modify fun progress => progress.withEvent (.remark said)

/-- Offer a line to the sink, which may refuse it. -/
def offer [Sink σ] (line : String) : Action σ (Option SinkFailure) := do
  let progress ← get
  match Sink.write progress.sink line with
  | (sink, refusal) =>
      set ({ progress with sink := sink }.withEvent (.offered line))
      return refusal

/-- Combine the contents of two registers into a third. -/
def combine (operate : UInt8 → UInt8 → UInt8)
    (left right destination : UInt8) : Action σ Unit := do
  let a ← readRegister left
  let b ← readRegister right
  onRegisters (RegisterBank.write destination (operate a b))

/-- Divide one register by another.  That the destination exists is checked
before the divisor is looked at. -/
def divide (left right destination : UInt8) : Action σ Unit := do
  let a ← readRegister left
  let b ← readRegister right
  checkRegister destination
  if b = 0 then
    throw (.divisionByZero right)
  else
    onRegisters (RegisterBank.write destination (a / b))

end Action

/-- A jump target, when it lies inside the image. -/
def jumpTarget (target : Address) : Except Fault Address :=
  if target.toNat < Image.capacity then
    .ok target
  else
    .error (.addressOutOfBounds target)

open ByteMachine.Action in
/-- Perform an instruction on a machine whose program counter has moved past
it. -/
def Instruction.perform {σ : Type} [Sink σ] :
    Instruction Address → Action σ Status
  | halt => return .halted
  | load register value => do
      onRegisters (RegisterBank.write register value)
      return .running
  | arithmetic .add left right destination => do
      combine (· + ·) left right destination
      return .running
  | arithmetic .sub left right destination => do
      combine (· - ·) left right destination
      return .running
  | arithmetic .mul left right destination => do
      combine (· * ·) left right destination
      return .running
  | arithmetic .div left right destination => do
      divide left right destination
      return .running
  | jump target => do
      let target ← jumpTarget target
      onPc (set target)
      return .running
  | jumpIfZero register target => do
      let value ← readRegister register
      let target ← jumpTarget target
      if value = 0 then
        onPc (set target)
        return .running
      else
        return .running
  | push register => do
      let value ← readRegister register
      onStack (OperandStack.push value)
      return .running
  | pop register => do
      checkRegister register
      let value ← onStack OperandStack.pop
      onRegisters (RegisterBank.write register value)
      return .running
  | print register => do
      let value ← readRegister register
      say (.printing register value)
      match ← offer (printedLine value) with
      | none => return .running
      | some failure => throw (.output failure)

end ByteMachine
