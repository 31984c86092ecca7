import ByteMachine.Assembly.Statement
import ByteMachine.Proofs.Result

/-!
# Operands of instructions

The registers that an instruction names and the target that it may jump to.
Resolution touches the target only, so that it can be described by a function
on targets.
-/

namespace ByteMachine

namespace Instruction

/-- The register operands in the order of their encoding. -/
def registers {τ : Type} : Instruction τ → List UInt8
  | halt => []
  | load register _ => [register]
  | arithmetic _ left right destination => [left, right, destination]
  | jump _ => []
  | jumpIfZero register _ => [register]
  | push register => [register]
  | pop register => [register]
  | print register => [register]

/-- The first register operand that the bank does not have. -/
def foreignRegister? {τ : Type} (instruction : Instruction τ) :
    Option UInt8 :=
  instruction.registers.find? fun r => 8 ≤ r.toNat

/-- The jump target of an instruction, if it has one. -/
def target? {τ : Type} : Instruction τ → Option τ
  | jump target => some target
  | jumpIfZero _ target => some target
  | _ => none

/-- Replace the jump target by what `f` makes of it. -/
def retarget {τ υ : Type} (f : τ → υ) : Instruction τ → Instruction υ
  | halt => halt
  | load register value => load register value
  | arithmetic operation left right destination =>
      arithmetic operation left right destination
  | jump target => jump (f target)
  | jumpIfZero register target => jumpIfZero register (f target)
  | push register => push register
  | pop register => pop register
  | print register => print register

/-- Resolution succeeds when it does on the jump target. -/
theorem resolve_eq_ok_iff
    {ε τ υ : Type} {f : τ → Except ε υ} {p : τ → Prop} {g : τ → υ}
    (hf : ∀ target address, f target = .ok address ↔
      p target ∧ address = g target)
    {instruction : Instruction τ} {resolved : Instruction υ} :
    instruction.resolve f = .ok resolved ↔
      (∀ target ∈ instruction.target?, p target) ∧
        resolved = instruction.retarget g := by
  cases instruction with
  | jump target | jumpIfZero register target =>
      simp only [resolve, Result.map_eq_ok_iff, hf, target?, retarget,
        Option.mem_some_iff, forall_eq']
      constructor
      · rintro ⟨address, ⟨htarget, rfl⟩, rfl⟩
        exact ⟨htarget, rfl⟩
      · rintro ⟨htarget, rfl⟩
        exact ⟨_, ⟨htarget, rfl⟩, rfl⟩
  | halt | load | arithmetic | push | pop | print =>
      simp only [resolve, target?, retarget, Option.not_mem_none,
        false_implies, implies_true, true_and, Except.ok.injEq]
      exact eq_comm

@[simp] theorem size_retarget
    {τ υ : Type} (f : τ → υ) (instruction : Instruction τ) :
    (instruction.retarget f).size = instruction.size := by
  cases instruction <;> rfl

@[simp] theorem registers_retarget
    {τ υ : Type} (f : τ → υ) (instruction : Instruction τ) :
    (instruction.retarget f).registers = instruction.registers := by
  cases instruction <;> rfl

theorem target?_retarget
    {τ υ : Type} (f : τ → υ) (instruction : Instruction τ) :
    (instruction.retarget f).target? = instruction.target?.map f := by
  cases instruction <;> rfl

end Instruction

/-- The jump target of a statement, if it has one. -/
def Statement.target? : Statement → Option Target
  | instruction i => i.target?
  | data _ => none

end ByteMachine
