import ByteMachine.Machine.Execute
import ByteMachine.Proofs.Decoding
import ByteMachine.Proofs.Effects
import ByteMachine.Proofs.Operands

/-!
# What a step can do

One step of a running machine does one of four things: it fails to fetch an
instruction, the instruction faults, its line is refused by the sink, or the
instruction is completed.  `StepsTo` lists them without the sink, which only
chooses between the last two; `Attempt` lists them with the sink, for what is
said about output.  Everything that is proved about runs goes through these
relations and the inversion lemmas for effects, and does not open the step
itself.
-/

namespace ByteMachine

/-! ## Registers and the stack -/

namespace RegisterBank

theorem lt_of_index_eq_ok
    {r : UInt8} {i : Fin 8} (h : index r = .ok i) : r.toNat < 8 := by
  unfold index at h
  split at h
  · assumption
  · cases h

theorem eq_of_index_eq_error
    {r : UInt8} {fault : Fault} (h : index r = .error fault) :
    8 ≤ r.toNat ∧ fault = .invalidRegister r := by
  unfold index at h
  split at h
  · cases h
  · next hr => exact ⟨Nat.not_lt.mp hr, (Except.error.inj h).symm⟩

theorem lt_of_read_eq_ok
    {bank : RegisterBank} {r value : UInt8} (h : bank.read r = .ok value) :
    r.toNat < 8 := by
  obtain ⟨i, hi, -⟩ := Result.bind_eq_ok_iff.mp h
  exact lt_of_index_eq_ok hi

theorem eq_of_read_eq_error
    {bank : RegisterBank} {r : UInt8} {fault : Fault}
    (h : bank.read r = .error fault) :
    8 ≤ r.toNat ∧ fault = .invalidRegister r := by
  rcases Result.bind_eq_error_iff.mp h with hi | ⟨i, -, hget⟩
  · exact eq_of_index_eq_error hi
  · cases hget

end RegisterBank

namespace OperandStack

theorem eq_of_push_outcome_eq_error
    {stack : OperandStack} {value : UInt8} {fault : Fault}
    (h : (push value).outcome stack = .error fault) :
    fault = .stackUnderflow stack.pointer := by
  have hrun := (atomic_push value).run_of_outcome_error h
  rcases Nat.eq_zero_or_pos stack.sp.val with hsp | hsp
  · rw [run_push_of_zero hsp] at hrun
    cases hrun
    rfl
  · rw [run_push_of_pos hsp] at hrun
    cases hrun

theorem eq_of_pop_outcome_eq_error
    {stack : OperandStack} {fault : Fault}
    (h : pop.outcome stack = .error fault) :
    fault = .stackOverflow stack.pointer := by
  have hrun := atomic_pop.run_of_outcome_error h
  rcases Nat.lt_or_ge stack.sp.val emptyPointer.val with hsp | hsp
  · rw [run_pop_of_lt hsp] at hrun
    cases hrun
  · rw [run_pop_of_ge hsp] at hrun
    cases hrun
    rfl

end OperandStack

theorem lt_of_jumpTarget_eq_ok
    {target value : Address} (h : jumpTarget target = .ok value) :
    target.toNat < 256 ∧ value = target := by
  unfold jumpTarget at h
  split at h
  · next hlt => exact ⟨hlt, (Except.ok.inj h).symm⟩
  · cases h

theorem eq_of_jumpTarget_eq_error
    {target : Address} {fault : Fault} (h : jumpTarget target = .error fault) :
    256 ≤ target.toNat ∧ fault = .addressOutOfBounds target := by
  unfold jumpTarget at h
  split at h
  · cases h
  · next hge => exact ⟨Nat.not_lt.mp hge, (Except.error.inj h).symm⟩

/-! ## Effects -/

namespace Instruction

/-- What is known about an effect once an instruction has passed its checks. -/
structure Completes
    (instruction : Instruction Address) (stack : OperandStack)
    (next : Address) (effect : Effect) : Prop where
  registers : ∀ r ∈ instruction.registers, r.toNat < 8
  target : ∀ target ∈ instruction.target?, target.toNat < 256
  pc : effect.pc = next ∨ instruction.target? = some effect.pc
  halts : effect.halts = true ↔ instruction = .halt
  stack : match instruction with
    | .push _ => ∃ value,
        (OperandStack.push value).run.run stack = (.ok (), effect.stack)
    | .pop _ => ∃ value,
        OperandStack.pop.run.run stack = (.ok value, effect.stack)
    | _ => effect.stack = stack

theorem completes_of_effect
    {instruction : Instruction Address} {bank : RegisterBank}
    {stack : OperandStack} {next : Address} {effect : Effect}
    (h : instruction.effect bank stack next = .ok effect) :
    instruction.Completes stack next effect := by
  cases instruction with
  | halt =>
      obtain rfl := Except.ok.inj h
      exact ⟨by simp [registers], by simp [target?], .inl rfl, by simp, rfl⟩
  | load r value =>
      obtain ⟨i, hi, hend⟩ := Result.bind_eq_ok_iff.mp h
      obtain rfl := Except.ok.inj hend
      have hr := RegisterBank.lt_of_index_eq_ok hi
      exact ⟨by simpa [registers] using hr, by simp [target?], .inl rfl,
        by simp, rfl⟩
  | arithmetic operation left right destination =>
      obtain ⟨a, ha, hrest⟩ := Result.bind_eq_ok_iff.mp h
      obtain ⟨b, hb, hrest⟩ := Result.bind_eq_ok_iff.mp hrest
      obtain ⟨i, hi, hrest⟩ := Result.bind_eq_ok_iff.mp hrest
      have hregisters : ∀ r ∈ (arithmetic operation left right destination :
          Instruction Address).registers, r.toNat < 8 := by
        simp only [registers, List.forall_mem_cons, List.not_mem_nil,
          false_implies, implies_true, and_true]
        exact ⟨RegisterBank.lt_of_read_eq_ok ha,
          RegisterBank.lt_of_read_eq_ok hb, RegisterBank.lt_of_index_eq_ok hi⟩
      cases hvalue : operation.result? a b with
      | none => simp [hvalue] at hrest
      | some value =>
          simp only [hvalue] at hrest
          obtain rfl := Except.ok.inj hrest
          exact ⟨hregisters, by simp [target?], .inl rfl, by simp, rfl⟩
  | jump target =>
      obtain ⟨value, hvalue, hend⟩ := Result.bind_eq_ok_iff.mp h
      obtain ⟨hlt, rfl⟩ := lt_of_jumpTarget_eq_ok hvalue
      obtain rfl := Except.ok.inj hend
      exact ⟨by simp [registers], by simpa [target?] using hlt, .inr rfl,
        by simp, rfl⟩
  | jumpIfZero r target =>
      obtain ⟨content, hcontent, hrest⟩ := Result.bind_eq_ok_iff.mp h
      obtain ⟨value, hvalue, hend⟩ := Result.bind_eq_ok_iff.mp hrest
      obtain ⟨hlt, rfl⟩ := lt_of_jumpTarget_eq_ok hvalue
      obtain rfl := Except.ok.inj hend
      have hr := RegisterBank.lt_of_read_eq_ok hcontent
      refine ⟨by simpa [registers] using hr, by simpa [target?] using hlt, ?_,
        by simp, rfl⟩
      by_cases hzero : content = 0
      · exact .inr (by simp [target?, hzero])
      · exact .inl (by simp [hzero])
  | push r =>
      obtain ⟨content, hcontent, hrest⟩ := Result.bind_eq_ok_iff.mp h
      obtain ⟨pushed, hpushed, hend⟩ := Result.bind_eq_ok_iff.mp hrest
      obtain rfl := Except.ok.inj hend
      have hr := RegisterBank.lt_of_read_eq_ok hcontent
      exact ⟨by simpa [registers] using hr, by simp [target?], .inl rfl,
        by simp, content, Change.outcome_eq_ok_iff.mp hpushed⟩
  | pop r =>
      obtain ⟨i, hi, hrest⟩ := Result.bind_eq_ok_iff.mp h
      obtain ⟨⟨value, popped⟩, hpopped, hend⟩ := Result.bind_eq_ok_iff.mp hrest
      obtain rfl := Except.ok.inj hend
      have hr := RegisterBank.lt_of_index_eq_ok hi
      exact ⟨by simpa [registers] using hr, by simp [target?], .inl rfl,
        by simp, value, Change.outcome_eq_ok_iff.mp hpopped⟩
  | print r =>
      obtain ⟨content, hcontent, hend⟩ := Result.bind_eq_ok_iff.mp h
      obtain rfl := Except.ok.inj hend
      have hr := RegisterBank.lt_of_read_eq_ok hcontent
      exact ⟨by simpa [registers] using hr, by simp [target?], .inl rfl,
        by simp, rfl⟩

/-- The faults of an instruction that was fetched. -/
theorem fault_cases_of_effect
    {instruction : Instruction Address} {bank : RegisterBank}
    {stack : OperandStack} {next : Address} {fault : Fault}
    (h : instruction.effect bank stack next = .error fault) :
    (∃ r ∈ instruction.registers, 8 ≤ r.toNat ∧ fault = .invalidRegister r) ∨
    (∃ target ∈ instruction.target?, 256 ≤ target.toNat ∧
      fault = .addressOutOfBounds target) ∨
    (∃ r, fault = .divisionByZero r) ∨
    fault = .stackUnderflow stack.pointer ∨
    fault = .stackOverflow stack.pointer := by
  have hregister : ∀ r ∈ instruction.registers,
      (8 ≤ r.toNat ∧ fault = .invalidRegister r) →
        ∃ r ∈ instruction.registers, 8 ≤ r.toNat ∧ fault = .invalidRegister r :=
    fun r hr hfault => ⟨r, hr, hfault⟩
  cases instruction with
  | halt => cases h
  | load r value =>
      rcases Result.bind_eq_error_iff.mp h with hindex | ⟨i, -, hend⟩
      · exact .inl (hregister r (by simp [registers])
          (RegisterBank.eq_of_index_eq_error hindex))
      · cases hend
  | arithmetic operation left right destination =>
      rcases Result.bind_eq_error_iff.mp h with hleft | ⟨a, -, hrest⟩
      · exact .inl (hregister left (by simp [registers])
          (RegisterBank.eq_of_read_eq_error hleft))
      rcases Result.bind_eq_error_iff.mp hrest with hright | ⟨b, -, hrest⟩
      · exact .inl (hregister right (by simp [registers])
          (RegisterBank.eq_of_read_eq_error hright))
      rcases Result.bind_eq_error_iff.mp hrest with hindex | ⟨i, -, hrest⟩
      · exact .inl (hregister destination (by simp [registers])
          (RegisterBank.eq_of_index_eq_error hindex))
      cases hvalue : operation.result? a b with
      | none =>
          simp only [hvalue] at hrest
          exact .inr (.inr (.inl ⟨right, (Except.error.inj hrest).symm⟩))
      | some value => simp [hvalue] at hrest
  | jump target =>
      rcases Result.bind_eq_error_iff.mp h with htarget | ⟨value, -, hend⟩
      · exact .inr (.inl ⟨target, rfl, eq_of_jumpTarget_eq_error htarget⟩)
      · cases hend
  | jumpIfZero r target =>
      rcases Result.bind_eq_error_iff.mp h with hread | ⟨content, -, hrest⟩
      · exact .inl (hregister r (by simp [registers])
          (RegisterBank.eq_of_read_eq_error hread))
      rcases Result.bind_eq_error_iff.mp hrest with htarget | ⟨value, -, hend⟩
      · exact .inr (.inl ⟨target, rfl, eq_of_jumpTarget_eq_error htarget⟩)
      · cases hend
  | push r =>
      rcases Result.bind_eq_error_iff.mp h with hread | ⟨content, -, hrest⟩
      · exact .inl (hregister r (by simp [registers])
          (RegisterBank.eq_of_read_eq_error hread))
      rcases Result.bind_eq_error_iff.mp hrest with hpush | ⟨pushed, -, hend⟩
      · have hfault := OperandStack.eq_of_push_outcome_eq_error hpush
        exact .inr (.inr (.inr (.inl hfault)))
      · cases hend
  | pop r =>
      rcases Result.bind_eq_error_iff.mp h with hindex | ⟨i, -, hrest⟩
      · exact .inl (hregister r (by simp [registers])
          (RegisterBank.eq_of_index_eq_error hindex))
      rcases Result.bind_eq_error_iff.mp hrest with hpop | ⟨popped, -, hend⟩
      · have hfault := OperandStack.eq_of_pop_outcome_eq_error hpop
        exact .inr (.inr (.inr (.inr hfault)))
      · cases hend
  | print r =>
      rcases Result.bind_eq_error_iff.mp h with hread | ⟨content, -, hend⟩
      · exact .inl (hregister r (by simp [registers])
          (RegisterBank.eq_of_read_eq_error hread))
      · cases hend

end Instruction

/-! ## Steps -/

/-- What can happen to a machine.  A step leaves one of the first two behind, or
nothing when the machine is stopped. -/
inductive Deed where
  | retired (instruction : Instruction Address)
  | faulted (fault : Fault)
  | loaded (program : List UInt8)
  | refused (program : List UInt8)
  | reset
  deriving DecidableEq, Repr

namespace Machine

variable {σ : Type}

/-- The machine with an instruction completed. -/
def retire (machine : Machine) (effect : Effect) : Machine :=
  { machine with
    registers := effect.registers
    stack := effect.stack
    pc := effect.pc
    running := !effect.halts
    steps := machine.steps + 1 }

/-- The machine stopped by a fault. -/
def stop (machine : Machine) (pc : Address) (fault : Fault) : Machine :=
  { machine with pc := pc, running := false, lastFault := some fault }

/-- A step that completes an instruction, after the events `before`. -/
def complete (machine : Machine) (effect : Effect) (sink : σ)
    (before : List Event) : Step σ :=
  let retired := machine.retire effect
  { machine := retired
    sink := sink
    result := .ok effect.status
    events :=
      if effect.halts then
        before ++ [.remark (.halted retired.pc retired.steps)]
      else
        before }

/-- A step that ends with a fault, after the events `before`. -/
def fail [Sink σ] (machine : Machine) (pc : Address) (fault : Fault) (sink : σ)
    (before : List Event) : Step σ :=
  { machine := machine.stop pc fault
    sink := (Sink.write sink (faultLine fault)).1
    result := .error fault
    events :=
      before ++ [.remark (.faulted pc fault), .offered (faultLine fault)] }

variable [Sink σ]

/-- What a step of a running machine can do. -/
inductive StepsTo (machine : Machine) : Deed → Machine → Prop
  | unfetched {fault : Fault} {next : Address}
      (hfetch : machine.fetch = (.error fault, next)) :
      StepsTo machine (.faulted fault) (machine.stop next fault)
  | unfit {instruction : Instruction Address} {fault : Fault} {next : Address}
      (hfetch : machine.fetch = (.ok instruction, next))
      (heffect : instruction.effect machine.registers machine.stack next =
        .error fault) :
      StepsTo machine (.faulted fault) (machine.stop next fault)
  | unprinted {instruction : Instruction Address} {effect : Effect}
      {next : Address} {failure : SinkFailure}
      (hfetch : machine.fetch = (.ok instruction, next))
      (heffect : instruction.effect machine.registers machine.stack next =
        .ok effect) :
      StepsTo machine (.faulted (.output failure))
        (machine.stop next (.output failure))
  | retired {instruction : Instruction Address} {effect : Effect}
      {next : Address}
      (hfetch : machine.fetch = (.ok instruction, next))
      (heffect : instruction.effect machine.registers machine.stack next =
        .ok effect) :
      StepsTo machine (.retired instruction) (machine.retire effect)

/-- What a step does; nothing when the machine is stopped. -/
def deed? (machine : Machine) (sink : σ) : Option Deed :=
  if machine.running then
    match (machine.step sink).result, machine.fetch.1 with
    | .error fault, _ => some (.faulted fault)
    | .ok _, .ok instruction => some (.retired instruction)
    | .ok _, .error _ => none
  else
    none

theorem step_of_stopped
    {machine : Machine} (h : machine.running = false) (sink : σ) :
    (machine.step sink).machine = machine ∧ machine.deed? sink = none := by
  simp [step, deed?, h]

/-! ### The step, once it is known how far it gets -/

section Equations

variable {machine : Machine} {sink after : σ} {next : Address}
  {fault : Fault} {instruction : Instruction Address} {effect : Effect}
  {register value : UInt8} {failure : SinkFailure}

theorem run_fetchAndPerform_of_error
    (hfetch : machine.fetch = (.error fault, next)) (sink : σ) :
    fetchAndPerform.run.run ⟨machine, sink, []⟩ =
      (.error fault, ⟨{ machine with pc := next }, sink, []⟩) := by
  have hpc := @Action.run_onPc σ _ ⟨machine, sink, []⟩ _ _ _ hfetch
  rw [fetchAndPerform, Result.run_bind_of_ok (Result.run_get _),
    Result.run_bind_of_error hpc]
  rfl

/-- An instruction that was fetched is performed with the program counter behind
its bytes. -/
theorem run_fetchAndPerform_of_ok
    (hfetch : machine.fetch = (.ok instruction, next)) (sink : σ) :
    fetchAndPerform.run.run ⟨machine, sink, []⟩ =
      instruction.perform.run.run ⟨{ machine with pc := next }, sink,
        [.remark (.fetched machine.pc instruction)]⟩ := by
  have hpc := @Action.run_onPc σ _ ⟨machine, sink, []⟩ _ _ _ hfetch
  rw [fetchAndPerform, Result.run_bind_of_ok (Result.run_get _),
    Result.run_bind_of_ok hpc, Result.run_bind_of_ok (Action.run_say _)]
  rfl

omit [Sink σ] in
/-- Counting a completed instruction is all that is left to do. -/
theorem finish_commit
    (h : machine.running = true) (effect : Effect) (next : Address) (sink : σ)
    (before : List Event) :
    (Progress.commit ⟨{ machine with pc := next }, sink, before⟩
        effect).finish effect.status =
      machine.complete effect sink before := by
  cases hhalts : effect.halts with
  | false =>
      simp only [Effect.status, complete, retire, hhalts, h]
      rfl
  | true =>
      simp only [Effect.status, complete, retire, hhalts]
      rfl

theorem step_of_unfetched
    (h : machine.running = true)
    (hfetch : machine.fetch = (.error fault, next)) (sink : σ) :
    machine.step sink = machine.fail next fault sink [] := by
  rw [step, if_pos h, run_fetchAndPerform_of_error hfetch]
  rfl

theorem step_of_unfit
    (h : machine.running = true)
    (hfetch : machine.fetch = (.ok instruction, next))
    (heffect : instruction.effect machine.registers machine.stack next =
      .error fault) (sink : σ) :
    machine.step sink = machine.fail next fault sink
      [.remark (.fetched machine.pc instruction)] := by
  rw [step, if_pos h, run_fetchAndPerform_of_ok hfetch,
    Instruction.run_perform, heffect]
  rfl

theorem step_of_silent
    (h : machine.running = true)
    (hfetch : machine.fetch = (.ok instruction, next))
    (heffect : instruction.effect machine.registers machine.stack next =
      .ok effect)
    (hprinted : effect.printed = none) (sink : σ) :
    machine.step sink = machine.complete effect sink
      [.remark (.fetched machine.pc instruction)] := by
  rw [step, if_pos h, run_fetchAndPerform_of_ok hfetch,
    Instruction.run_perform, heffect, Progress.settle, hprinted]
  exact finish_commit h effect next sink _

theorem step_of_printed
    (h : machine.running = true)
    (hfetch : machine.fetch = (.ok instruction, next))
    (heffect : instruction.effect machine.registers machine.stack next =
      .ok effect)
    (hprinted : effect.printed = some (register, value))
    (hwrite : Sink.write sink (printedLine value) = (after, none)) :
    machine.step sink = machine.complete effect after
      [.remark (.fetched machine.pc instruction),
        .remark (.printing register value),
        .offered (printedLine value)] := by
  rw [step, if_pos h, run_fetchAndPerform_of_ok hfetch,
    Instruction.run_perform, heffect, Progress.settle, hprinted]
  simp only [hwrite]
  exact finish_commit h effect next after _

theorem step_of_unprinted
    (h : machine.running = true)
    (hfetch : machine.fetch = (.ok instruction, next))
    (heffect : instruction.effect machine.registers machine.stack next =
      .ok effect)
    (hprinted : effect.printed = some (register, value))
    (hwrite : Sink.write sink (printedLine value) = (after, some failure)) :
    machine.step sink = machine.fail next (.output failure) after
      [.remark (.fetched machine.pc instruction),
        .remark (.printing register value),
        .offered (printedLine value)] := by
  rw [step, if_pos h, run_fetchAndPerform_of_ok hfetch,
    Instruction.run_perform, heffect, Progress.settle, hprinted]
  simp only [hwrite]
  rfl

end Equations

/-- The ways in which a step of a running machine ends, with what was offered
to its sink.  The remarks on the way are left open. -/
inductive Attempt (machine : Machine) (sink : σ) : Step σ → Prop
  | unfetched {fault : Fault} {next : Address} {before : List Event}
      (hfetch : machine.fetch = (.error fault, next)) :
      Attempt machine sink (machine.fail next fault sink before)
  | unfit {instruction : Instruction Address} {fault : Fault} {next : Address}
      {before : List Event}
      (hfetch : machine.fetch = (.ok instruction, next))
      (heffect : instruction.effect machine.registers machine.stack next =
        .error fault) :
      Attempt machine sink (machine.fail next fault sink before)
  | silent {instruction : Instruction Address} {effect : Effect}
      {next : Address} {before : List Event}
      (hfetch : machine.fetch = (.ok instruction, next))
      (heffect : instruction.effect machine.registers machine.stack next =
        .ok effect)
      (hprinted : effect.printed = none) :
      Attempt machine sink (machine.complete effect sink before)
  | printed {instruction : Instruction Address} {effect : Effect}
      {next : Address} {register value : UInt8} {after : σ}
      {before : List Event}
      (hfetch : machine.fetch = (.ok instruction, next))
      (heffect : instruction.effect machine.registers machine.stack next =
        .ok effect)
      (hprinted : effect.printed = some (register, value))
      (hwrite : Sink.write sink (printedLine value) = (after, none)) :
      Attempt machine sink (machine.complete effect after before)
  | unprinted {instruction : Instruction Address} {effect : Effect}
      {next : Address} {register value : UInt8} {after : σ}
      {failure : SinkFailure} {before : List Event}
      (hfetch : machine.fetch = (.ok instruction, next))
      (heffect : instruction.effect machine.registers machine.stack next =
        .ok effect)
      (hprinted : effect.printed = some (register, value))
      (hwrite : Sink.write sink (printedLine value) = (after, some failure)) :
      Attempt machine sink (machine.fail next (.output failure) after before)

theorem attempt_step
    {machine : Machine} (h : machine.running = true) (sink : σ) :
    machine.Attempt sink (machine.step sink) := by
  obtain ⟨fetched, next, hfetch⟩ : ∃ fetched next,
      machine.fetch = (fetched, next) := ⟨_, _, rfl⟩
  cases fetched with
  | error fault =>
      rw [step_of_unfetched h hfetch]
      exact .unfetched hfetch
  | ok instruction =>
      cases heffect :
          instruction.effect machine.registers machine.stack next with
      | error fault =>
          rw [step_of_unfit h hfetch heffect]
          exact .unfit hfetch heffect
      | ok effect =>
          cases hprinted : effect.printed with
          | none =>
              rw [step_of_silent h hfetch heffect hprinted]
              exact .silent hfetch heffect hprinted
          | some printed =>
              obtain ⟨register, value⟩ := printed
              obtain ⟨after, refusal, hwrite⟩ : ∃ after refusal,
                  Sink.write sink (printedLine value) = (after, refusal) :=
                ⟨_, _, rfl⟩
              cases refusal with
              | none =>
                  rw [step_of_printed h hfetch heffect hprinted hwrite]
                  exact .printed hfetch heffect hprinted hwrite
              | some failure =>
                  rw [step_of_unprinted h hfetch heffect hprinted hwrite]
                  exact .unprinted hfetch heffect hprinted hwrite

/-- A running machine does one of the four things, whatever its sink. -/
theorem step_of_running
    {machine : Machine} (h : machine.running = true) (sink : σ) :
    ∃ deed, machine.deed? sink = some deed ∧
      machine.StepsTo deed (machine.step sink).machine := by
  have hattempt := attempt_step h sink
  unfold deed?
  rw [if_pos h]
  generalize machine.step sink = step at hattempt ⊢
  cases hattempt with
  | unfetched hfetch =>
      exact ⟨_, rfl, .unfetched hfetch⟩
  | unfit hfetch heffect =>
      exact ⟨_, rfl, .unfit hfetch heffect⟩
  | unprinted hfetch heffect =>
      exact ⟨_, rfl, .unprinted hfetch heffect⟩
  | silent hfetch heffect | printed hfetch heffect =>
      refine ⟨_, ?_, .retired hfetch heffect⟩
      rw [hfetch]
      rfl

/-! ## Executions -/

/-- A new machine with a program in its memory, ready to run. -/
def started (program : List UInt8) : Machine :=
  { initial with image := Image.blank.overlay program, running := true }

theorem load_initial
    {program : List UInt8} (h : program.length ≤ 256) :
    initial.load program = .ok (started program) := by
  simp [load, initial, started, Image.load, Image.capacity, h]

/-- What a machine does within a number of steps, the latest first. -/
def deeds : Nat → Machine → σ → List Deed
  | 0, _, _ => []
  | limit + 1, machine, sink =>
      let step := machine.step sink
      deeds limit step.machine step.sink ++ (machine.deed? sink).toList

/-- A fault stops the machine. -/
theorem StepsTo.stopped
    {machine next : Machine} {fault : Fault}
    (h : machine.StepsTo (.faulted fault) next) : next.running = false := by
  cases h <;> rfl

theorem deed?_of_error
    {machine : Machine} {sink : σ} {fault : Fault}
    (h : machine.running = true)
    (hresult : (machine.step sink).result = .error fault) :
    machine.deed? sink = some (.faulted fault) := by
  simp [deed?, h, hresult]

theorem running_of_step_error
    {machine : Machine} {sink : σ} {fault : Fault}
    (h : (machine.step sink).result = .error fault) :
    machine.running = true := by
  by_contra hstopped
  rw [step, if_neg hstopped] at h
  cases h

/-- Steps of a stopped machine do nothing. -/
theorem deeds_of_stopped
    {machine : Machine} (h : machine.running = false) (limit : Nat)
    (sink : σ) : machine.deeds limit sink = [] := by
  have hstep : machine.step sink = ⟨machine, sink, .ok .halted, []⟩ := by
    simp [step, h]
  have hdeed := (step_of_stopped h sink).2
  induction limit with
  | zero => rfl
  | succ limit ih => simp [deeds, hstep, hdeed, ih]

/-- What every step of a running machine keeps, one step keeps. -/
theorem step_induction
    {p : List Deed → Machine → Prop}
    (hkeep : ∀ past machine deed next, machine.running = true →
      machine.StepsTo deed next → p past machine → p (deed :: past) next)
    {past : List Deed} {machine : Machine} (sink : σ) (h : p past machine) :
    p ((machine.deed? sink).toList ++ past) (machine.step sink).machine := by
  by_cases hrunning : machine.running = true
  · obtain ⟨deed, hdeed, hto⟩ := step_of_running hrunning sink
    rw [hdeed]
    exact hkeep past machine deed _ hrunning hto h
  · obtain ⟨hmachine, hdeed⟩ :=
      step_of_stopped (Bool.eq_false_iff.mpr hrunning) sink
    rw [hmachine, hdeed]
    exact h

/-- What every step of a running machine keeps, an execution keeps. -/
theorem execute_induction
    {p : List Deed → Machine → Prop}
    (hkeep : ∀ past machine deed next, machine.running = true →
      machine.StepsTo deed next → p past machine → p (deed :: past) next)
    {fuel : Nat} {past : List Deed} {machine : Machine} {sink : σ}
    {journal : Array Event} {execution : Execution σ}
    (hexecute : machine.execute fuel sink journal = some execution)
    (h : p past machine) :
    p (machine.deeds fuel sink ++ past) execution.machine := by
  induction fuel generalizing past machine sink journal with
  | zero =>
      rw [execute] at hexecute
      split at hexecute
      · cases hexecute
      · obtain rfl := Option.some.inj hexecute
        exact h
  | succ fuel ih =>
      rw [execute] at hexecute
      by_cases hrunning : machine.running = true
      · have hstep := step_induction hkeep sink h
        rw [if_pos hrunning] at hexecute
        rw [deeds, List.append_assoc]
        cases hresult : (machine.step sink).result with
        | ok status =>
            simp only [hresult] at hexecute
            exact ih hexecute hstep
        | error fault =>
            simp only [hresult] at hexecute
            obtain rfl := Option.some.inj hexecute
            obtain ⟨deed, hdeed, hto⟩ := step_of_running hrunning sink
            rw [deed?_of_error hrunning hresult] at hdeed
            obtain rfl := Option.some.inj hdeed
            rw [deeds_of_stopped hto.stopped]
            exact hstep
      · rw [if_neg hrunning] at hexecute
        obtain rfl := Option.some.inj hexecute
        rw [deeds_of_stopped (Bool.eq_false_iff.mpr hrunning)]
        exact h

end Machine

end ByteMachine
