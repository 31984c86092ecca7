import ByteMachine.Proofs.Stepping

/-!
# Invariants over all histories

A machine lives through loads, steps, executions and resets in any order, and
each of them may write to another sink.  `History` collects what happened to it
on the way.  The invariant ties the state to that past: the depth of the stack
is the number of pushes less the number of pops, and the step count the number
of instructions, both since the last reset.  It is also why the arithmetic on
the program counter and the stack pointer never wraps.
-/

namespace ByteMachine

/-! ## Histories -/

/-- The pasts that a machine can have, the latest deed first. -/
inductive History : List Deed → Machine → Prop
  | initial : History [] Machine.initial
  | loaded {past : List Deed} {machine next : Machine}
      {program : List UInt8} (h : History past machine)
      (hload : machine.load program = .ok next) :
      History (.loaded program :: past) next
  | refused {past : List Deed} {machine : Machine} {program : List UInt8}
      {error : LoadError} (h : History past machine)
      (hload : machine.load program = .error error) :
      History (.refused program :: past) machine
  | step {past : List Deed} {machine : Machine} {σ : Type} [Sink σ]
      (h : History past machine) (sink : σ) :
      History ((machine.deed? sink).toList ++ past)
        (machine.step sink).machine
  | execute {past : List Deed} {machine : Machine} {σ : Type} [Sink σ]
      {fuel : Nat} {sink : σ} {journal : Array Event}
      {execution : Execution σ} (h : History past machine)
      (hexecute : machine.execute fuel sink journal = some execution) :
      History (machine.deeds fuel sink ++ past) execution.machine
  | reset {past : List Deed} {machine : Machine} (h : History past machine) :
      History (.reset :: past) machine.reset

/-- The instructions completed since the last reset, the latest first. -/
def retiredSince : List Deed → List (Instruction Address)
  | [] => []
  | .reset :: _ => []
  | .retired instruction :: past => instruction :: retiredSince past
  | .faulted _ :: past => retiredSince past
  | .loaded _ :: past => retiredSince past
  | .refused _ :: past => retiredSince past

namespace Instruction

def isPush {τ : Type} : Instruction τ → Bool
  | push _ => true
  | _ => false

def isPop {τ : Type} : Instruction τ → Bool
  | pop _ => true
  | _ => false

end Instruction

/-! ## The stack pointer as a word -/

namespace OperandStack

@[simp] theorem toNat_pointer (stack : OperandStack) :
    stack.pointer.toNat = stack.sp.val := by
  have hlt : stack.sp.val < UInt16.size :=
    Nat.lt_trans stack.sp.isLt (by decide)
  exact UInt16.toNat_ofNat_of_lt' hlt

theorem depth_add_pointer (stack : OperandStack) :
    stack.depth + stack.pointer.toNat = 255 := by
  rw [toNat_pointer, depth_add_sp]

/-- A push writes the cell at the stack pointer, which is not the lowest one,
and moves the pointer down without wrapping. -/
theorem push_eq_ok
    {stack next : OperandStack} {value : UInt8}
    (h : (push value).run.run stack = (.ok (), next)) :
    0 < stack.pointer.toNat ∧ stack.pointer.toNat < 256 ∧
      next.pointer.toNat + 1 = stack.pointer.toNat ∧
      next.cells.toList =
        stack.cells.toList.set stack.pointer.toNat value := by
  rcases Nat.eq_zero_or_pos stack.sp.val with hsp | hsp
  · rw [run_push_of_zero hsp] at h
    cases h
  · rw [run_push_of_pos hsp] at h
    cases h
    simp only [toNat_pointer, Vector.toList_set]
    exact ⟨hsp, stack.sp.isLt, Nat.sub_add_cancel hsp, trivial⟩

/-- A pop moves the pointer up without wrapping and reads the cell there. -/
theorem pop_eq_ok
    {stack next : OperandStack} {value : UInt8}
    (h : pop.run.run stack = (.ok value, next)) :
    next.pointer.toNat = stack.pointer.toNat + 1 ∧
      next.pointer.toNat < 256 ∧
      stack.cells[next.pointer.toNat]? = some value ∧
      next.cells = stack.cells := by
  rcases Nat.lt_or_ge stack.sp.val emptyPointer.val with hsp | hsp
  · rw [run_pop_of_lt hsp] at h
    cases h
    have hlt : stack.sp.val + 1 < 256 := Nat.add_lt_of_lt_sub hsp
    simp only [toNat_pointer]
    exact ⟨trivial, hlt, Vector.getElem?_eq_getElem hlt, trivial⟩
  · rw [run_pop_of_ge hsp] at h
    cases h

end OperandStack

/-! ## The invariant -/

namespace Machine

/-- What holds of a machine with the given past. -/
structure Sound (machine : Machine) (past : List Deed) : Prop where
  pc : machine.pc.toNat ≤ 256
  pointer : machine.stack.pointer.toNat ≤ 255
  floor : machine.stack.cells[0] = 0
  lastFault : machine.running = true → machine.lastFault = none
  depth : machine.stack.depth +
      (retiredSince past).countP Instruction.isPop =
    (retiredSince past).countP Instruction.isPush
  steps : machine.steps = UInt64.ofNat (retiredSince past).length

/-- Whatever can be computed next is computed without wrapping, and whatever
cell is touched next exists. -/
structure InRange (machine : Machine) : Prop where
  fetchByte : ∀ pc byte next,
    (fetchByte machine.image).run.run pc = (.ok byte, next) →
      machine.image.cells[pc.toNat]? = some byte ∧ pc.toNat < 256 ∧
        next.toNat = pc.toNat + 1
  fetch : ∀ instruction next, machine.fetch = (.ok instruction, next) →
    next.toNat = machine.pc.toNat + instruction.size ∧ next.toNat ≤ 256
  push : ∀ value next,
    (OperandStack.push value).run.run machine.stack = (.ok (), next) →
      0 < machine.stack.pointer.toNat ∧ machine.stack.pointer.toNat < 256 ∧
        next.pointer.toNat + 1 = machine.stack.pointer.toNat ∧
        next.cells.toList =
          machine.stack.cells.toList.set machine.stack.pointer.toNat value
  pop : ∀ value next,
    OperandStack.pop.run.run machine.stack = (.ok value, next) →
      next.pointer.toNat = machine.stack.pointer.toNat + 1 ∧
        next.pointer.toNat < 256 ∧
        machine.stack.cells[next.pointer.toNat]? = some value ∧
        next.cells = machine.stack.cells
  depth : machine.stack.depth + machine.stack.pointer.toNat = 255
  registers : ∀ r i, RegisterBank.index r = .ok i →
    r.toNat < 8 ∧ i.val = r.toNat

theorem sound_initial : initial.Sound [] where
  pc := by decide
  pointer := by decide
  floor := by simp [initial, OperandStack.empty]
  lastFault _ := rfl
  depth := rfl
  steps := rfl

/-- Stopping keeps the invariant, because nothing was completed. -/
theorem Sound.stop
    {machine : Machine} {past : List Deed} (h : machine.Sound past)
    {next : Address} (hnext : next.toNat ≤ 256) (fault : Fault) :
    (machine.stop next fault).Sound (.faulted fault :: past) where
  pc := hnext
  pointer := h.pointer
  floor := h.floor
  lastFault hrunning := by cases hrunning
  depth := h.depth
  steps := h.steps

/-- The stack of an effect is as deep as the instruction says, and its lowest
cell is the old one. -/
theorem Sound.stack_of_completes
    {machine : Machine} {past : List Deed} (h : machine.Sound past)
    {instruction : Instruction Address} {next : Address} {effect : Effect}
    (hcompletes : instruction.Completes machine.stack next effect) :
    effect.stack.cells[0] = 0 ∧
      effect.stack.depth + (instruction :: retiredSince past).countP
          Instruction.isPop =
        (instruction :: retiredSince past).countP Instruction.isPush := by
  have hdepth := h.depth
  have hfloor := h.floor
  have hstack := hcompletes.stack
  have hbefore := machine.stack.depth_add_pointer
  have hafter := effect.stack.depth_add_pointer
  cases instruction with
  | push r =>
      obtain ⟨value, hpush⟩ := hstack
      obtain ⟨hpos, -, hpointer, hcells⟩ := OperandStack.push_eq_ok hpush
      refine ⟨?_, ?_⟩
      · have hzero : effect.stack.cells.toList[0]? =
            machine.stack.cells.toList[0]? := by
          rw [hcells, List.getElem?_set_ne (Nat.ne_of_gt hpos)]
        simpa [hfloor] using hzero
      · simp only [List.countP_cons, Instruction.isPush, Instruction.isPop]
        simp only [Bool.false_eq_true, ↓reduceIte]
        omega
  | pop r =>
      obtain ⟨value, hpop⟩ := hstack
      obtain ⟨hpointer, -, -, hcells⟩ := OperandStack.pop_eq_ok hpop
      refine ⟨?_, ?_⟩
      · rw [hcells]
        exact hfloor
      · simp only [List.countP_cons, Instruction.isPush, Instruction.isPop]
        simp only [Bool.false_eq_true, ↓reduceIte]
        omega
  | halt | load | arithmetic | jump | jumpIfZero | print =>
      have hsame : effect.stack = machine.stack := hstack
      rw [hsame]
      exact ⟨hfloor, by
        simpa [Instruction.isPush, Instruction.isPop] using hdepth⟩

/-- One step keeps the invariant. -/
theorem Sound.step
    {machine next : Machine} {past : List Deed} {deed : Deed}
    (hrunning : machine.running = true) (hto : machine.StepsTo deed next)
    (h : machine.Sound past) : next.Sound (deed :: past) := by
  obtain ⟨hle, -⟩ := toNat_fetch_le h.pc
  cases hto with
  | unfetched hfetch | unfit hfetch | unprinted hfetch =>
      rw [hfetch] at hle
      exact h.stop hle _
  | @retired instruction effect next hfetch heffect =>
      rw [hfetch] at hle
      have hcompletes := Instruction.completes_of_effect heffect
      obtain ⟨hfloor, hdepth⟩ := h.stack_of_completes hcompletes
      refine ⟨?_, ?_, hfloor, fun _ => h.lastFault hrunning, hdepth, ?_⟩
      · change effect.pc.toNat ≤ 256
        rcases hcompletes.pc with hpc | htarget
        · rw [hpc]
          exact hle
        · exact Nat.le_of_lt (hcompletes.target _ htarget)
      · have hsum := effect.stack.depth_add_pointer
        change effect.stack.pointer.toNat ≤ 255
        omega
      · change machine.steps + 1 = _
        rw [h.steps, retiredSince, List.length_cons, UInt64.ofNat_add]
        rfl

theorem inRange_of_pc_le
    {machine : Machine} (hpc : machine.pc.toNat ≤ 256) : machine.InRange where
  fetchByte := by
    intro pc byte next hfetch
    by_cases hlt : pc.toNat < 256
    · rw [run_fetchByte_of_lt hlt] at hfetch
      obtain ⟨hbyte, rfl⟩ := Prod.mk.inj hfetch
      obtain rfl := Except.ok.inj hbyte
      exact ⟨Vector.getElem?_eq_getElem hlt, hlt, toNat_add_one_of_lt hlt⟩
    · rw [run_fetchByte_of_ge (Nat.not_lt.mp hlt)] at hfetch
      cases (Prod.mk.inj hfetch).1
  fetch := by
    intro instruction next hfetch
    obtain ⟨hle, hmoved⟩ := toNat_fetch_le hpc
    rw [hfetch] at hle hmoved
    exact ⟨hmoved instruction rfl, hle⟩
  push _ _ := OperandStack.push_eq_ok
  pop _ _ := OperandStack.pop_eq_ok
  depth := machine.stack.depth_add_pointer
  registers := by
    intro r i hindex
    have hlt := RegisterBank.lt_of_index_eq_ok hindex
    rw [RegisterBank.index, dif_pos hlt] at hindex
    obtain rfl := Except.ok.inj hindex
    exact ⟨hlt, rfl⟩

end Machine

/-- Every history keeps the invariant. -/
theorem History.sound
    {past : List Deed} {machine : Machine} (h : History past machine) :
    machine.Sound past := by
  induction h with
  | initial => exact Machine.sound_initial
  | @loaded past machine next program h hload ih =>
      obtain ⟨image, -, hnext⟩ := Result.bind_eq_ok_iff.mp hload
      obtain rfl := Except.ok.inj hnext
      exact ⟨ih.pc, ih.pointer, ih.floor, fun _ => rfl, ih.depth, ih.steps⟩
  | refused h hload ih =>
      exact ⟨ih.pc, ih.pointer, ih.floor, ih.lastFault, ih.depth, ih.steps⟩
  | step h sink ih =>
      exact Machine.step_induction
        (p := fun past machine => machine.Sound past)
        (fun _ _ _ _ hrunning hto => Machine.Sound.step hrunning hto) sink ih
  | execute h hexecute ih =>
      exact Machine.execute_induction
        (p := fun past machine => machine.Sound past)
        (fun _ _ _ _ hrunning hto => Machine.Sound.step hrunning hto)
        hexecute ih
  | reset h ih =>
      rw [Machine.reset_eq_initial]
      exact ⟨Machine.sound_initial.pc, Machine.sound_initial.pointer,
        Machine.sound_initial.floor, fun _ => rfl, rfl, rfl⟩

/-- Over any history of loads, steps, executions and resets, with any sinks, the
machine satisfies the invariant of its past, and so nothing that it computes
next wraps or leaves its storage. -/
theorem sound_over_histories
    {past : List Deed} {machine : Machine} (h : History past machine) :
    machine.Sound past ∧ machine.InRange :=
  ⟨h.sound, Machine.inRange_of_pc_le h.sound.pc⟩

/-- A machine after a rejected load, an accepted one, and two steps. -/
theorem sound_over_histories_push :
    ∃ past machine, History past machine ∧
      retiredSince past = [.push 0, .load 0 5] ∧
      machine.stack.pointer = 254 ∧ machine.steps = 2 ∧
      machine.Sound past ∧ machine.InRange := by
  have hrefused : Machine.initial.load (List.replicate 257 0) =
      .error ⟨257, 256⟩ := by
    decide +kernel
  have hloaded : Machine.initial.load [1, 0, 5, 8, 0] =
      .ok { Machine.initial with
        image := Image.blank.overlay [1, 0, 5, 8, 0], running := true } := rfl
  have hstart := (History.initial.refused hrefused).loaded hloaded
  have hend := (hstart.step ({} : Tape)).step ({} : Tape)
  exact ⟨_, _, hend, by decide +kernel, by decide +kernel, by decide +kernel,
    sound_over_histories hend⟩

end ByteMachine
