import ByteMachine.Proofs.Stepping

/-!
# What a fault leaves behind

A step works in place, and nothing it has written is taken back when it faults.
All the same an instruction that faults has changed nothing, since it checks
whatever it can fault at before it writes.  So a fault leaves the machine as it
was but for three fields: it is stopped, it remembers the fault, and its program
counter has moved past the bytes that were fetched.  How far that is depends on
the stage at which the fault arose, and this is what `Machine.StopsAt` lists.
The line about the fault is offered to the sink after all this, and its fate
changes nothing.
-/

namespace ByteMachine

theorem Image.read?_eq_head?_from (image : Image) (address : Address) :
    image.read? address = (image.from address.toNat).head? := by
  rw [Image.read?, Image.from, List.head?_drop, Vector.getElem?_toList]

/-- The faults of an instruction that was fetched as a whole. -/
def Fault.IsOfInstruction : Fault → Prop
  | pcOutOfBounds _ => False
  | illegalOpcode _ _ => False
  | _ => True

theorem Instruction.isOfInstruction_of_effect
    {instruction : Instruction Address} {bank : RegisterBank}
    {stack : OperandStack} {next : Address} {fault : Fault}
    (h : instruction.effect bank stack next = .error fault) :
    fault.IsOfInstruction := by
  rcases fault_cases_of_effect h with
    ⟨r, -, -, rfl⟩ | ⟨target, -, -, rfl⟩ | ⟨r, rfl⟩ | rfl | rfl
  all_goals trivial

/-- An instruction that faults leaves the machine as it found it, although what
it writes on the way is not taken back. -/
theorem Instruction.machine_eq_of_perform_error
    {σ : Type} [Sink σ] {instruction : Instruction Address}
    {progress after : Progress σ} {fault : Fault}
    (h : instruction.perform.run.run progress = (.error fault, after)) :
    after.machine = progress.machine ∧ fault.IsOfInstruction := by
  rw [run_perform] at h
  cases heffect : instruction.effect progress.machine.registers
      progress.machine.stack progress.machine.pc with
  | error other =>
      rw [heffect] at h
      cases h
      exact ⟨rfl, isOfInstruction_of_effect heffect⟩
  | ok effect =>
      -- Only a line that the sink refuses is left to fault at.
      rw [heffect, Progress.settle] at h
      split at h
      · cases h
      · split at h
        · cases h
        · cases h
          exact ⟨rfl, trivial⟩

namespace Machine

/-- Where the program counter stands after a fault. -/
inductive StopsAt (machine : Machine) : Fault → Nat → Prop
  /-- No byte stands at the program counter, which stays. -/
  | outside (hread : machine.image.read? machine.pc = none) :
      StopsAt machine (.pcOutOfBounds machine.pc) machine.pc.toNat
  /-- The byte at the program counter names no operation. -/
  | illegal {byte : UInt8}
      (hread : machine.image.read? machine.pc = some byte)
      (hbyte : Opcode.ofByte? byte = none) :
      StopsAt machine (.illegalOpcode byte machine.pc) (machine.pc.toNat + 1)
  /-- The memory ends among the operands. -/
  | cutOff {operation : Opcode}
      (hread : machine.image.read? machine.pc = some operation.byte)
      (hend : 256 < machine.pc.toNat + 1 + operation.operandBytes) :
      StopsAt machine (.pcOutOfBounds 256) 256
  /-- A whole instruction was fetched. -/
  | behind {instruction : Instruction Address} {fault : Fault}
      (hencode : instruction.encode <+: machine.image.from machine.pc.toNat)
      (hfault : fault.IsOfInstruction) :
      StopsAt machine fault (machine.pc.toNat + instruction.size)

theorem stopsAt_of_fetch_error
    {machine : Machine} {fault : Fault} {next : Address}
    (hfetch : machine.fetch = (.error fault, next)) :
    machine.StopsAt fault next.toNat := by
  have hread := machine.image.read?_eq_head?_from machine.pc
  have hlength := machine.image.length_from machine.pc.toNat
  by_cases hpc : 256 ≤ machine.pc.toNat
  · rw [fetch_of_ge hpc] at hfetch
    obtain ⟨hfault, rfl⟩ := Prod.mk.inj hfetch
    obtain rfl := Except.error.inj hfault
    rw [Nat.sub_eq_zero_of_le hpc] at hlength
    rw [List.eq_nil_of_length_eq_zero hlength, List.head?_nil] at hread
    exact .outside hread
  rcases @fetch_cases machine (by omega) with ⟨instruction, -, hother⟩ |
    ⟨byte, rest, hbytes, hbyte, hother⟩ | ⟨hshort, hother⟩
  · cases (Prod.mk.inj (hfetch.symm.trans hother)).1
  · obtain ⟨hfault, rfl⟩ := Prod.mk.inj (hfetch.symm.trans hother)
    obtain rfl := Except.error.inj hfault
    rw [hbytes, List.head?_cons] at hread
    rw [toNat_add_one_of_lt (Nat.not_le.mp hpc)]
    exact .illegal hread hbyte
  · obtain ⟨hfault, rfl⟩ := Prod.mk.inj (hfetch.symm.trans hother)
    obtain rfl := Except.error.inj hfault
    rcases hshort with hnil | ⟨operation, rest, hbytes, hfew⟩
    · rw [hnil, List.length_nil] at hlength
      omega
    · rw [hbytes, List.head?_cons] at hread
      rw [hbytes, List.length_cons] at hlength
      exact .cutOff hread (by omega)

theorem stopsAt_of_fetch_ok
    {machine : Machine} {instruction : Instruction Address} {next : Address}
    (hfetch : machine.fetch = (.ok instruction, next))
    {fault : Fault} (hfault : fault.IsOfInstruction) :
    machine.StopsAt fault next.toNat := by
  obtain ⟨hencode, hnext⟩ := encode_prefix_of_fetch hfetch
  rw [hnext]
  exact .behind hencode hfault

variable {σ τ : Type} [Sink σ] [Sink τ]

/-- A fault stops the machine and changes nothing else but the program
counter. -/
theorem stop_of_step_error
    {machine : Machine} {sink : σ} {fault : Fault}
    (h : (machine.step sink).result = .error fault) :
    ∃ next, machine.StopsAt fault next.toNat ∧
      (machine.step sink).machine = machine.stop next fault := by
  have hrunning := running_of_step_error h
  rw [step, if_pos hrunning] at h ⊢
  obtain ⟨fetched, next, hfetch⟩ : ∃ fetched next,
      machine.fetch = (fetched, next) := ⟨_, _, rfl⟩
  cases fetched with
  | error other =>
      rw [run_fetchAndPerform_of_error hfetch] at h ⊢
      obtain rfl := Except.error.inj h
      exact ⟨next, stopsAt_of_fetch_error hfetch, rfl⟩
  | ok instruction =>
      rw [run_fetchAndPerform_of_ok hfetch] at h ⊢
      split at h
      · next status after hperform => cases status <;> cases h
      · next other after hperform =>
          obtain rfl := Except.error.inj h
          obtain ⟨hmachine, hfault⟩ :=
            Instruction.machine_eq_of_perform_error hperform
          refine ⟨next, stopsAt_of_fetch_ok hfetch hfault, ?_⟩
          rw [Progress.fail, hmachine]
          rfl

/-- A step takes from its sink only the answer to the printed line. -/
theorem step_congr_of_answers
    (machine : Machine) {sink : σ} {other : τ}
    (hanswers : ∀ value, (Sink.write other (printedLine value)).2 =
      (Sink.write sink (printedLine value)).2) :
    (machine.step other).result = (machine.step sink).result ∧
      (machine.step other).machine = (machine.step sink).machine := by
  by_cases h : machine.running = true
  · have hattempt := attempt_step h sink
    generalize machine.step sink = step at hattempt ⊢
    cases hattempt with
    | unfetched hfetch =>
        rw [step_of_unfetched h hfetch]
        exact ⟨rfl, rfl⟩
    | unfit hfetch heffect =>
        rw [step_of_unfit h hfetch heffect]
        exact ⟨rfl, rfl⟩
    | silent hfetch heffect hprinted =>
        rw [step_of_silent h hfetch heffect hprinted]
        exact ⟨rfl, rfl⟩
    | printed hfetch heffect hprinted hwrite =>
        have hanswer := (hanswers _).trans (congrArg Prod.snd hwrite)
        rw [step_of_printed h hfetch heffect hprinted (Prod.ext rfl hanswer)]
        exact ⟨rfl, rfl⟩
    | unprinted hfetch heffect hprinted hwrite =>
        have hanswer := (hanswers _).trans (congrArg Prod.snd hwrite)
        rw [step_of_unprinted h hfetch heffect hprinted
          (Prod.ext rfl hanswer)]
        exact ⟨rfl, rfl⟩
  · simp [step, h]

end Machine

/-- A step that faults leaves image, registers, stack and step count as they
were.  It stops the machine, records the fault that it returns, and moves the
program counter as far as the stage of the fault says.  Another sink that
answers printed lines alike leads to the same machine and the same fault,
whatever either of them makes of the line about the fault. -/
theorem fault_atomicity
    {σ : Type} [Sink σ] (machine : Machine) (sink : σ) {fault : Fault}
    (hfault : (machine.step sink).result = .error fault) :
    (∃ next, machine.StopsAt fault next.toNat ∧
      (machine.step sink).machine =
        { machine with
          pc := next, running := false, lastFault := some fault }) ∧
    ∀ (τ : Type) [Sink τ] (other : τ),
      (∀ value, (Sink.write other (printedLine value)).2 =
        (Sink.write sink (printedLine value)).2) →
      (machine.step other).result = .error fault ∧
        (machine.step other).machine = (machine.step sink).machine := by
  refine ⟨Machine.stop_of_step_error hfault, ?_⟩
  intro τ _ other hanswers
  rw [← hfault]
  exact machine.step_congr_of_answers hanswers

/-- A pop from the empty stack, with a tape that takes every printed line but
refuses the line about the fault, and with a tape that takes both. -/
theorem fault_atomicity_emptyPop :
    (Sink.write (⟨"", some ⟨4, .timedOut⟩⟩ : Tape)
      (faultLine (.stackOverflow 255))).2 = some .timedOut ∧
    (∃ next, (Machine.started [9, 3]).StopsAt (.stackOverflow 255)
        next.toNat ∧
      ((Machine.started [9, 3]).step
        (⟨"", some ⟨4, .timedOut⟩⟩ : Tape)).machine =
        { Machine.started [9, 3] with
          pc := next, running := false,
          lastFault := some (.stackOverflow 255) }) ∧
    ((Machine.started [9, 3]).step ({} : Tape)).result =
      .error (.stackOverflow 255) := by
  have hshort : ∀ n : Fin 256,
      (printedLine (UInt8.ofNat n.val)).length ≤ 4 := by
    decide +kernel
  have hanswers : ∀ value, (Sink.write ({} : Tape) (printedLine value)).2 =
      (Sink.write (⟨"", some ⟨4, .timedOut⟩⟩ : Tape)
        (printedLine value)).2 := by
    intro value
    have hvalue := hshort ⟨value.toNat, value.toNat_lt⟩
    rw [UInt8.ofNat_toNat] at hvalue
    simp [Sink.write, Tape.write, hvalue]
  have hfault : ((Machine.started [9, 3]).step
      (⟨"", some ⟨4, .timedOut⟩⟩ : Tape)).result =
        .error (.stackOverflow 255) := by
    decide +kernel
  obtain ⟨hstop, hothers⟩ := fault_atomicity (Machine.started [9, 3])
    (⟨"", some ⟨4, .timedOut⟩⟩ : Tape) hfault
  exact ⟨by decide +kernel, hstop, (hothers Tape {} hanswers).1⟩

end ByteMachine
