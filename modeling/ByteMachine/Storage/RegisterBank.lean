import ByteMachine.Storage.Change

/-!
# The register bank

Eight byte registers.  An operand byte becomes the index of a register by one
check, `RegisterBank.index`, whose result carries the bound; reading and writing
through an index cannot fail.
-/

namespace ByteMachine

/-- The number of registers. -/
abbrev RegisterBank.count : Nat := 8

structure RegisterBank where
  cells : Vector UInt8 RegisterBank.count
  deriving DecidableEq

namespace RegisterBank

def zero : RegisterBank :=
  ⟨Vector.replicate count 0⟩

def clear (bank : RegisterBank) : RegisterBank :=
  { bank with cells := Vector.replicate count 0 }

/-- The register that an operand byte names. -/
def index (register : UInt8) : Except Fault (Fin count) :=
  if h : register.toNat < count then
    .ok ⟨register.toNat, h⟩
  else
    .error (.invalidRegister register)

def get (bank : RegisterBank) (i : Fin count) : UInt8 :=
  bank.cells[i]

def set (bank : RegisterBank) (i : Fin count) (value : UInt8) : RegisterBank :=
  ⟨bank.cells.set i.val value⟩

@[simp]
theorem get_set (bank : RegisterBank) (i j : Fin count) (value : UInt8) :
    (bank.set i value).get j = if i = j then value else bank.get j := by
  simp [get, set, Vector.getElem_set, Fin.ext_iff]

/-- The content of the register that an operand byte names. -/
def read (bank : RegisterBank) (register : UInt8) : Except Fault UInt8 := do
  let i ← index register
  return bank.get i

/-- Replace the content of the register that an operand byte names. -/
def write (register value : UInt8) : Change RegisterBank Unit := do
  let i ← index register
  modify fun bank => bank.set i value

end RegisterBank
end ByteMachine
