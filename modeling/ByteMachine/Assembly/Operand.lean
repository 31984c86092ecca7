import ByteMachine.Assembly.Complaint
import ByteMachine.Instruction.Basic
import ByteMachine.Storage.RegisterBank

/-!
# Operands in source text

An operand is one word.  Numbers are decimal, or hexadecimal behind `0x`, `0X`
or a dollar sign, and must be below `2 ^ 32` to count as numbers at all; the
narrower width of the place where a number stands is checked after that.  A jump
target is a number when it looks like one from its first character, and a label
name otherwise.
-/

namespace ByteMachine

/-- A jump target in source text. -/
inductive Target where
  | address (value : Address)
  | label (name : String)
  deriving DecidableEq, Repr

namespace Operand

/-- The bound below which a numeral counts as a number. -/
def numberBound : Nat := UInt32.size

/-- The value of a numeral, whose spelling decides the radix. -/
def numberValue? : List Char → Option Nat
  | '0' :: 'x' :: digits => Numeral.below? numberBound 16 digits
  | '0' :: 'X' :: digits => Numeral.below? numberBound 16 digits
  | '$' :: digits => Numeral.below? numberBound 16 digits
  | digits => Numeral.below? numberBound 10 digits

def number (word : String) : Except Complaint Nat :=
  match numberValue? word.toList with
  | some value => .ok value
  | none => .error (.invalidNumber word)

/-- Read a number of eight bits. -/
def byte (word : String) : Except Complaint UInt8 := do
  let value ← number word
  if value < UInt8.size then
    return UInt8.ofNat value
  else
    throw (.outOfRange value 8)

/-- Read a number of sixteen bits. -/
def address (word : String) : Except Complaint Address := do
  let value ← number word
  if value < UInt16.size then
    return UInt16.ofNat value
  else
    throw (.outOfRange value 16)

/-- The register number behind the letter `r` of either case. -/
def registerNumber? : List Char → Option Nat
  | 'r' :: digits => Numeral.below? RegisterBank.count 10 digits
  | 'R' :: digits => Numeral.below? RegisterBank.count 10 digits
  | _ => none

def register (word : String) : Except Complaint UInt8 :=
  match registerNumber? word.toList with
  | some index => .ok (UInt8.ofNat index)
  | none => .error (.invalidRegister word)

/-- Whether a word starts with an ASCII digit or a dollar sign. -/
def looksNumeric (word : String) : Bool :=
  match word.toList with
  | first :: _ => first.isDigit || first == '$'
  | [] => false

def target (word : String) : Except Complaint Target :=
  if looksNumeric word then
    (address word).map .address
  else
    .ok (.label word)

end Operand
end ByteMachine
