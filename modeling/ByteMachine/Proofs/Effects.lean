import ByteMachine.Machine.Step
import ByteMachine.Proofs.Result

/-!
# The effect of an instruction

An instruction is performed in place, and a fault takes nothing back.  Here it
is read as a transaction instead: its effect is computed from the registers and
the stack before anything is changed, and is committed as a whole or not at all.
The two readings agree, and this is a matter of the order in which instructions
proceed.  Whatever an instruction can fault at comes before its first write, but
for a pop, which writes twice: the register that its second write goes to was
checked before the stack was touched, so that this write cannot fault.
-/

namespace ByteMachine

/-! ## Changes that leave nothing behind -/

namespace Change

variable {S T α β : Type}

/-- What a change comes to when a fault takes everything back. -/
def outcome (change : Change S α) (state : S) : Except Fault (α × S) :=
  match change.run.run state with
  | (.ok a, after) => .ok (a, after)
  | (.error fault, _) => .error fault

theorem outcome_eq_ok_iff
    {change : Change S α} {state after : S} {a : α} :
    change.outcome state = .ok (a, after) ↔
      change.run.run state = (.ok a, after) := by
  rw [outcome]
  constructor
  · intro h
    split at h
    · next hrun =>
        cases h
        exact hrun
    · cases h
  · intro h
    rw [h]

theorem outcome_of_error
    {change : Change S α} {state after : S} {fault : Fault}
    (h : change.run.run state = (.error fault, after)) :
    change.outcome state = .error fault := by
  rw [outcome, h]

theorem run_within
    {change : Change T α} {part : S → T} {replace : S → T → S} {state : S}
    {result : Except Fault α} {changed : T}
    (h : change.run.run (part state) = (result, changed)) :
    (change.within part replace).run.run state =
      (result, replace state changed) := by
  rw [within, ExceptT.run_mk, StateT.run, h]

/-- A change that has changed nothing yet when it faults. -/
def Atomic (change : Change S α) : Prop :=
  ∀ state fault after,
    change.run.run state = (.error fault, after) → after = state

theorem Atomic.run_of_outcome_error
    {change : Change S α} (h : change.Atomic) {state : S} {fault : Fault}
    (houtcome : change.outcome state = .error fault) :
    change.run.run state = (.error fault, state) := by
  rw [outcome] at houtcome
  split at houtcome
  · cases houtcome
  · next other after hrun =>
      obtain rfl := Except.error.inj houtcome
      rw [hrun, h state _ after hrun]

end Change

theorem OperandStack.atomic_push (value : UInt8) : (push value).Atomic := by
  intro stack fault after h
  rcases Nat.eq_zero_or_pos stack.sp.val with hsp | hsp
  · rw [run_push_of_zero hsp] at h
    exact (Prod.mk.inj h).2.symm
  · rw [run_push_of_pos hsp] at h
    cases h

theorem OperandStack.atomic_pop : pop.Atomic := by
  intro stack fault after h
  rcases Nat.lt_or_ge stack.sp.val emptyPointer.val with hsp | hsp
  · rw [run_pop_of_lt hsp] at h
    cases h
  · rw [run_pop_of_ge hsp] at h
    exact (Prod.mk.inj h).2.symm

/-! ## Effects -/

/-- What an instruction leaves behind once all its checks have passed. -/
structure Effect where
  registers : RegisterBank
  stack : OperandStack
  /-- The address of the next instruction. -/
  pc : Address
  /-- The register to print and its content. -/
  printed : Option (UInt8 × UInt8) := none
  halts : Bool := false
  deriving DecidableEq

def Effect.status (effect : Effect) : Status :=
  if effect.halts then .halted else .running

/-- The result of an arithmetic operation on bytes; a zero divisor has no
quotient. -/
def Arithmetic.result? (left right : UInt8) : Arithmetic → Option UInt8
  | add => some (left + right)
  | sub => some (left - right)
  | mul => some (left * right)
  | div => if right = 0 then none else some (left / right)

/-- The effect of an instruction on registers and stack, where `next` is the
address behind it. -/
def Instruction.effect (registers : RegisterBank) (stack : OperandStack)
    (next : Address) : Instruction Address → Except Fault Effect
  | halt => .ok { registers, stack, pc := next, halts := true }
  | load register value => do
      let i ← RegisterBank.index register
      return { registers := registers.set i value, stack, pc := next }
  | arithmetic operation left right destination => do
      let a ← registers.read left
      let b ← registers.read right
      let i ← RegisterBank.index destination
      match operation.result? a b with
      | none => throw (.divisionByZero right)
      | some value =>
          return { registers := registers.set i value, stack, pc := next }
  | jump target => do
      let target ← jumpTarget target
      return { registers, stack, pc := target }
  | jumpIfZero register target => do
      let value ← registers.read register
      let target ← jumpTarget target
      return { registers, stack, pc := if value = 0 then target else next }
  | push register => do
      let value ← registers.read register
      let (_, stack) ← (OperandStack.push value).outcome stack
      return { registers, stack, pc := next }
  | pop register => do
      let i ← RegisterBank.index register
      let (value, stack) ← OperandStack.pop.outcome stack
      return { registers := registers.set i value, stack, pc := next }
  | print register => do
      let value ← registers.read register
      return { registers, stack, pc := next, printed := some (register, value) }

/-! ## Performing an instruction -/

namespace Progress

variable {σ : Type}

/-- The machine with an effect committed. -/
def commit (progress : Progress σ) (effect : Effect) : Progress σ :=
  ((progress.withRegisters effect.registers).withStack effect.stack).withPc
    effect.pc

/-- The state after a line was offered to the sink, which is `after` now. -/
def afterPrint (progress : Progress σ) (register value : UInt8) (after : σ) :
    Progress σ :=
  { progress.withEvent (.remark (.printing register value)) with
    sink := after }.withEvent (.offered (printedLine value))

/-- What comes of an instruction with a given effect. -/
def settle [Sink σ] (progress : Progress σ) :
    Except Fault Effect → Except Fault Status × Progress σ
  | .error fault => (.error fault, progress)
  | .ok effect =>
      match effect.printed with
      | none => (.ok effect.status, progress.commit effect)
      | some (register, value) =>
          match Sink.write progress.sink (printedLine value) with
          | (after, none) =>
              (.ok effect.status,
                (progress.commit effect).afterPrint register value after)
          | (after, some failure) =>
              (.error (.output failure),
                progress.afterPrint register value after)

end Progress

namespace Action

variable {σ α : Type} {progress : Progress σ}

theorem run_onPc
    {change : Change Address α} {result : Except Fault α} {pc : Address}
    (h : change.run.run progress.machine.pc = (result, pc)) :
    (onPc change).run.run progress = (result, progress.withPc pc) := by
  rw [onPc]
  exact Change.run_within h

theorem run_onStack
    {change : Change OperandStack α} {result : Except Fault α}
    {stack : OperandStack}
    (h : change.run.run progress.machine.stack = (result, stack)) :
    (onStack change).run.run progress = (result, progress.withStack stack) := by
  rw [onStack]
  exact Change.run_within h

theorem run_liftM (check : Except Fault α) :
    (liftM check : Action σ α).run.run progress = (check, progress) := rfl

theorem run_readRegister (register : UInt8) :
    (readRegister register).run.run progress =
      (progress.machine.registers.read register, progress) := rfl

theorem checkRegister_bind (register : UInt8) (rest : Unit → Action σ α) :
    checkRegister register >>= rest =
      liftM (RegisterBank.index register) >>= fun _ => rest () := by
  rw [checkRegister, bind_assoc]
  simp only [pure_bind]

theorem run_say (said : Remark) :
    (say said).run.run progress =
      (.ok (), progress.withEvent (.remark said)) := rfl

variable [Sink σ]

theorem run_offer
    {line : String} {after : σ} {refusal : Option SinkFailure}
    (h : Sink.write progress.sink line = (after, refusal)) :
    (offer line).run.run progress =
      (.ok refusal,
        { progress with sink := after }.withEvent (.offered line)) := by
  rw [offer, Result.run_bind_of_ok (Result.run_get progress), h]
  rfl

/-! ### Stage by stage

An instruction is a sequence of stages, and so is its effect.  A stage that
faults leaves the rest out on both sides, so it is enough that it has changed
nothing by then. -/

section Stages

variable {rest : α → Action σ Status}

/-- A check changes nothing. -/
theorem run_check_bind_eq_settle
    {stage : Action σ α} {check : Except Fault α}
    {effect : α → Except Fault Effect}
    (hstage : stage.run.run progress = (check, progress))
    (hrest : ∀ a, check = .ok a →
      (rest a).run.run progress = progress.settle (effect a)) :
    (stage >>= rest).run.run progress =
      progress.settle (check >>= effect) := by
  cases check with
  | error fault => exact Result.run_bind_of_error hstage rest
  | ok a => exact (Result.run_bind_of_ok hstage rest).trans (hrest a rfl)

/-- Work on the stack changes nothing but the stack, and not even that where it
faults. -/
theorem run_onStack_bind_eq_settle
    {change : Change OperandStack α} (hatomic : change.Atomic)
    {effect : α × OperandStack → Except Fault Effect}
    (hrest : ∀ a stack, (rest a).run.run (progress.withStack stack) =
      progress.settle (effect (a, stack))) :
    (onStack change >>= rest).run.run progress =
      progress.settle (change.outcome progress.machine.stack >>= effect) := by
  cases houtcome : change.outcome progress.machine.stack with
  | error fault =>
      have hrun := run_onStack (hatomic.run_of_outcome_error houtcome)
      exact Result.run_bind_of_error hrun rest
  | ok changed =>
      have hrun := run_onStack (Change.outcome_eq_ok_iff.mp houtcome)
      rw [Result.run_bind_of_ok hrun, hrest]
      rfl

/-- A write to a register is the last stage. -/
theorem run_write_eq_settle (register value : UInt8) (progress : Progress σ) :
    (do onRegisters (RegisterBank.write register value)
        return .running : Action σ Status).run.run progress =
      progress.settle (do
        let i ← RegisterBank.index register
        return { registers := progress.machine.registers.set i value
                 stack := progress.machine.stack
                 pc := progress.machine.pc }) := by
  rw [RegisterBank.write]
  cases RegisterBank.index register with
  | error fault => rfl
  | ok i => rfl

end Stages

/-- A combination that is always defined reads both operands before it writes.
-/
theorem run_combine_eq_settle
    {operation : Arithmetic} {operate : UInt8 → UInt8 → UInt8}
    (h : ∀ a b, operation.result? a b = some (operate a b))
    (left right destination : UInt8) (progress : Progress σ) :
    (do combine operate left right destination
        return .running : Action σ Status).run.run progress =
      progress.settle ((Instruction.arithmetic operation left right
        destination).effect progress.machine.registers progress.machine.stack
          progress.machine.pc) := by
  simp only [combine, bind_assoc, Instruction.effect, h]
  apply run_check_bind_eq_settle (run_readRegister left)
  intro a _
  apply run_check_bind_eq_settle (run_readRegister right)
  intro b _
  exact run_write_eq_settle destination (operate a b) progress

/-- A division checks its destination and its divisor before it writes. -/
theorem run_divide_eq_settle
    (left right destination : UInt8) (progress : Progress σ) :
    (do divide left right destination
        return .running : Action σ Status).run.run progress =
      progress.settle ((Instruction.arithmetic .div left right
        destination).effect progress.machine.registers progress.machine.stack
          progress.machine.pc) := by
  simp only [divide, bind_assoc, checkRegister_bind, Instruction.effect]
  apply run_check_bind_eq_settle (run_readRegister left)
  intro a _
  apply run_check_bind_eq_settle (run_readRegister right)
  intro b _
  apply run_check_bind_eq_settle (run_liftM _)
  intro i hindex
  by_cases hzero : b = 0
  · simp only [hzero, if_true, Arithmetic.result?]
    rfl
  · simp only [hzero, if_false, Arithmetic.result?]
    rw [run_write_eq_settle, hindex]
    rfl

end Action

open ByteMachine.Action in
/-- Performing an instruction in place comes to the same as committing its
effect, or nothing where there is none. -/
theorem Instruction.run_perform
    {σ : Type} [Sink σ] (instruction : Instruction Address)
    (progress : Progress σ) :
    instruction.perform.run.run progress =
      progress.settle (instruction.effect progress.machine.registers
        progress.machine.stack progress.machine.pc) := by
  cases instruction with
  | halt => rfl
  | load register value => exact run_write_eq_settle register value progress
  | arithmetic operation left right destination =>
      cases operation with
      | add => exact run_combine_eq_settle (fun _ _ => rfl) _ _ _ _
      | sub => exact run_combine_eq_settle (fun _ _ => rfl) _ _ _ _
      | mul => exact run_combine_eq_settle (fun _ _ => rfl) _ _ _ _
      | div => exact run_divide_eq_settle _ _ _ _
  | jump target =>
      rw [perform, effect]
      apply run_check_bind_eq_settle (run_liftM _)
      intro target _
      rfl
  | jumpIfZero register target =>
      rw [perform, effect]
      apply run_check_bind_eq_settle (run_readRegister register)
      intro value _
      apply run_check_bind_eq_settle (run_liftM _)
      intro target _
      by_cases hzero : value = 0
      · simp only [hzero, if_true]
        rfl
      · simp only [hzero, if_false]
        rfl
  | push register =>
      rw [perform, effect]
      apply run_check_bind_eq_settle (run_readRegister register)
      intro value _
      apply run_onStack_bind_eq_settle (OperandStack.atomic_push value)
      intro _ stack
      rfl
  | pop register =>
      rw [perform, effect, checkRegister_bind]
      apply run_check_bind_eq_settle (run_liftM _)
      intro i hindex
      apply run_onStack_bind_eq_settle OperandStack.atomic_pop
      intro value stack
      -- The stack is changed already, but the register was checked.
      rw [run_write_eq_settle, hindex]
      rfl
  | print register =>
      rw [perform, effect]
      apply run_check_bind_eq_settle (run_readRegister register)
      intro value _
      obtain ⟨after, refusal, hwrite⟩ : ∃ after refusal,
          Sink.write progress.sink (printedLine value) = (after, refusal) :=
        ⟨_, _, rfl⟩
      have hoffer := @run_offer σ
        (progress.withEvent (.remark (.printing register value))) _ _ _ _ hwrite
      rw [Result.run_bind_of_ok (run_say _), Result.run_bind_of_ok hoffer]
      simp only [Result.pure_eq_ok, Progress.settle, hwrite]
      cases refusal with
      | none => rfl
      | some failure => rfl

end ByteMachine
