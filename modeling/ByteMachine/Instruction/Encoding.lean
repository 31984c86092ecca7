import ByteMachine.Instruction.Basic

/-!
# The byte format of instructions

An instruction is encoded as its operation byte followed by its operand bytes,
an address with the high byte first.  Reading is generic in where the bytes come
from: `Instruction.read` pulls them one at a time in order, so that the memory
of a running machine and a stored byte string share one decoder, and a pull that
fails ends the reading at exactly that point.
-/

namespace ByteMachine

/-- The two bytes of an address, high byte first. -/
def addressBytes (address : Address) : List UInt8 :=
  [UInt8.ofNat (address.toNat / 256), UInt8.ofNat (address.toNat % 256)]

/-- The address with the given high and low byte. -/
def addressOfBytes (high low : UInt8) : Address :=
  UInt16.ofNat (256 * high.toNat + low.toNat)

@[simp]
theorem addressOfBytes_div_mod (address : Address) :
    addressOfBytes (UInt8.ofNat (address.toNat / 256))
      (UInt8.ofNat (address.toNat % 256)) = address := by
  apply UInt16.toNat_inj.mp
  have := address.toNat_lt
  simp only [addressOfBytes, UInt8.toNat_ofNat', UInt16.toNat_ofNat']
  omega

@[simp]
theorem addressBytes_addressOfBytes (high low : UInt8) :
    addressBytes (addressOfBytes high low) = [high, low] := by
  have hhigh := high.toNat_lt
  have hlow := low.toNat_lt
  simp only [addressBytes, addressOfBytes, List.cons.injEq, and_true,
    ← UInt8.toNat_inj, UInt8.toNat_ofNat', UInt16.toNat_ofNat']
  omega

namespace Instruction

def operands : Instruction Address → List UInt8
  | halt => []
  | load register value => [register, value]
  | arithmetic _ left right destination => [left, right, destination]
  | jump target => addressBytes target
  | jumpIfZero register target => register :: addressBytes target
  | push register => [register]
  | pop register => [register]
  | print register => [register]

def encode (instruction : Instruction Address) : List UInt8 :=
  instruction.opcode.byte :: instruction.operands

@[simp]
theorem length_encode (instruction : Instruction Address) :
    instruction.encode.length = instruction.size := by
  cases instruction <;>
    simp [encode, operands, size, opcode, Opcode.operandBytes, addressBytes]

/-- Read an address, high byte first. -/
def readAddress {m : Type → Type} [Monad m] (next : m UInt8) : m Address := do
  let high ← next
  let low ← next
  return addressOfBytes high low

/-- Read the operands of an operation from a source of bytes, each byte when it
is needed. -/
def read {m : Type → Type} [Monad m] (next : m UInt8) :
    Opcode → m (Instruction Address)
  | .halt => pure halt
  | .load => do
      let register ← next
      let value ← next
      return load register value
  | .arithmetic operation => do
      let left ← next
      let right ← next
      let destination ← next
      return arithmetic operation left right destination
  | .jump => do
      let target ← readAddress next
      return jump target
  | .jumpIfZero => do
      let register ← next
      let target ← readAddress next
      return jumpIfZero register target
  | .push => do
      let register ← next
      return push register
  | .pop => do
      let register ← next
      return pop register
  | .print => do
      let register ← next
      return print register

end Instruction

/-- A byte source over state `σ`: a pull gives a byte or fails with an `ε`, and
in both cases leaves a new state behind. -/
abbrev ByteSource (σ ε : Type) := ExceptT ε (StateM σ)

/-- A stored byte string that is being consumed. -/
structure Supply where
  /-- The bytes not yet pulled. -/
  rest : List UInt8
  /-- The pulls made so far, one that found nothing included. -/
  pulls : Nat := 0
  deriving DecidableEq, Repr

/-- Pull the next byte of a supply. -/
def Supply.pull : ByteSource Supply Unit UInt8 :=
  ExceptT.mk fun supply =>
    match supply.rest with
    | [] => (.error (), ⟨[], supply.pulls + 1⟩)
    | b :: rest => (.ok b, ⟨rest, supply.pulls + 1⟩)

/-- Why a byte string does not start with an instruction. -/
inductive DecodeFailure where
  /-- The first byte names no operation. -/
  | unknownOpcode (byte : UInt8)
  /-- The bytes ended before the operands did, at the given pull. -/
  | truncated (pulls : Nat)
  deriving DecidableEq, Repr

/-- An instruction decoded from stored bytes, with the number of operand bytes
it took. -/
structure Decoded where
  instruction : Instruction Address
  pulls : Nat
  deriving DecidableEq, Repr

/-- Decode the instruction that starts with `first` and goes on in `rest`; bytes
after it are ignored. -/
def decode (first : UInt8) (rest : List UInt8) : Except DecodeFailure Decoded :=
  match Opcode.ofByte? first with
  | none => .error (.unknownOpcode first)
  | some operation =>
      match (Instruction.read Supply.pull operation).run.run ⟨rest, 0⟩ with
      | (.ok instruction, supply) => .ok ⟨instruction, supply.pulls⟩
      | (.error _, supply) => .error (.truncated supply.pulls)

/-- Decoding an encoded instruction gives it back, whatever bytes follow it. -/
theorem decode_operands
    (instruction : Instruction Address) (rest : List UInt8) :
    decode instruction.opcode.byte (instruction.operands ++ rest) =
      .ok ⟨instruction, instruction.opcode.operandBytes⟩ := by
  cases instruction with
  | arithmetic operation left right destination => cases operation <;> rfl
  | jump target =>
      exact congrArg (fun address => Except.ok (Decoded.mk (.jump address) 2))
        (addressOfBytes_div_mod target)
  | jumpIfZero register target =>
      exact congrArg
        (fun address => Except.ok (Decoded.mk (.jumpIfZero register address) 3))
        (addressOfBytes_div_mod target)
  | halt => rfl
  | load register value => rfl
  | push register => rfl
  | pop register => rfl
  | print register => rfl

end ByteMachine
