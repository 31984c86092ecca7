import ByteMachine.Proofs.Stepping
import ByteMachine.Session.Run

/-!
# Runs

A run is a number of steps, after which the report is read off the machine.
What it does therefore follows from what `Machine.advance` does, with the
budget as the number of steps or, where there is none, with enough of them.
While a machine goes on running, each step completes one instruction.
-/

namespace ByteMachine

namespace Machine

variable {σ : Type} [Sink σ] {machine : Machine}

theorem advance_of_stopped
    (h : machine.running = false) (limit : Nat) (sink : σ)
    (journal : Array Event) :
    machine.advance limit sink journal = ⟨machine, sink, journal⟩ := by
  cases limit with
  | zero => rfl
  | succ limit => simp [advance, h]

theorem advance_of_running
    (h : machine.running = true) (limit : Nat) (sink : σ)
    (journal : Array Event) :
    machine.advance (limit + 1) sink journal =
      (machine.step sink).machine.advance limit (machine.step sink).sink
        (journal.appendList (machine.step sink).events) := by
  simp [advance, h]

/-- The journal so far has no part in what a machine does. -/
theorem advance_congr_journal
    (limit : Nat) (machine : Machine) (sink : σ)
    (journal other : Array Event) :
    (machine.advance limit sink journal).machine =
        (machine.advance limit sink other).machine ∧
      (machine.advance limit sink journal).sink =
        (machine.advance limit sink other).sink := by
  induction limit generalizing machine sink journal other with
  | zero => exact ⟨rfl, rfl⟩
  | succ limit ih =>
      by_cases h : machine.running = true
      · rw [advance_of_running h, advance_of_running h]
        exact ih _ _ _ _
      · have hstopped := Bool.eq_false_iff.mpr h
        rw [advance_of_stopped hstopped, advance_of_stopped hstopped]
        exact ⟨rfl, rfl⟩

theorem advance_after_step
    (h : machine.running = true) (limit : Nat) (sink : σ)
    (journal other : Array Event) :
    (machine.advance (limit + 1) sink journal).machine =
        ((machine.step sink).machine.advance limit (machine.step sink).sink
          other).machine ∧
      (machine.advance (limit + 1) sink journal).sink =
        ((machine.step sink).machine.advance limit (machine.step sink).sink
          other).sink := by
  rw [advance_of_running h]
  exact advance_congr_journal ..

theorem running_of_advance
    {limit : Nat} {sink : σ} {journal : Array Event}
    (h : (machine.advance limit sink journal).machine.running = true) :
    machine.running = true := by
  by_contra hstopped
  rw [advance_of_stopped (Bool.eq_false_iff.mpr hstopped)] at h
  exact hstopped h

/-- A step after which the machine still runs has completed an instruction. -/
theorem retired_of_step_running
    {sink : σ} (hrunning : machine.running = true)
    (h : (machine.step sink).machine.running = true) :
    ∃ instruction, machine.deed? sink = some (.retired instruction) ∧
      (machine.step sink).machine.steps = machine.steps + 1 := by
  obtain ⟨deed, hdeed, hto⟩ := step_of_running hrunning sink
  generalize (machine.step sink).machine = next at hto h ⊢
  cases hto with
  | unfetched | unfit | unprinted => cases h
  | @retired instruction => exact ⟨instruction, hdeed, rfl⟩

/-- A machine that still runs has completed one instruction in each step. -/
theorem retired_of_advance_running
    {limit : Nat} {sink : σ} {journal : Array Event}
    (h : (machine.advance limit sink journal).machine.running = true) :
    ∃ retired : List (Instruction Address), retired.length = limit ∧
      machine.deeds limit sink = retired.map .retired ∧
      (machine.advance limit sink journal).machine.steps =
        machine.steps + UInt64.ofNat limit := by
  induction limit generalizing machine sink journal with
  | zero => exact ⟨[], rfl, rfl, (UInt64.add_zero _).symm⟩
  | succ limit ih =>
      have hrunning := running_of_advance h
      rw [advance_of_running hrunning] at h ⊢
      obtain ⟨instruction, hdeed, hstep⟩ :=
        retired_of_step_running hrunning (running_of_advance h)
      obtain ⟨retired, hlength, hdeeds, hsteps⟩ := ih h
      refine ⟨retired ++ [instruction], ?_, ?_, ?_⟩
      · rw [List.length_append, hlength, List.length_singleton]
      · rw [deeds, hdeeds, hdeed, List.map_append]
        rfl
      · rw [hsteps, hstep, UInt64.add_assoc, UInt64.add_comm 1,
          UInt64.ofNat_add]
        rfl

/-! ## Reports -/

/-- How a run ends that has led to this machine; not at all, when the machine
still runs and there is no budget. -/
def outcomeWithin (machine : Machine) (budget : Option Nat) :
    Option Outcome :=
  if machine.running then budget.map fun _ => .stepLimit
  else some machine.outcome

theorem outcomeWithin_of_stopped
    (h : machine.running = false) (budget : Option Nat) :
    machine.outcomeWithin budget = some machine.outcome := by
  simp [outcomeWithin, h]

theorem isSome_outcomeWithin
    (machine : Machine) {budget : Option Nat} (h : budget.isSome) :
    (machine.outcomeWithin budget).isSome := by
  rw [outcomeWithin]
  split
  · rw [Option.isSome_map]
    exact h
  · rfl

end Machine

/-- A run is described by the session to which the steps lead. -/
theorem Session.run_eq
    {σ : Type} [Sink σ] (fuel : Nat) (session : Session σ) :
    let ended := session.after (session.machine.advance
      (session.budget.getD fuel) session.sink #[])
    ∃ journal, session.run fuel =
      (ended.machine.outcomeWithin session.budget).map fun outcome =>
        ⟨ended, ended.report outcome, journal⟩ := by
  obtain ⟨machine, sink, budget⟩ := session
  cases budget with
  | none =>
      simp only [run, runToEnd, Option.getD_none]
      generalize machine.advance fuel sink #[] = last
      refine ⟨last.journal, ?_⟩
      by_cases hrunning : last.machine.running = true
      · simp [Machine.outcomeWithin, after, hrunning]
      · simp [Machine.outcomeWithin, after, finish, hrunning]
  | some limit =>
      simp only [run, runWithin, Option.getD_some]
      generalize machine.advance limit sink #[] = last
      by_cases hrunning : last.machine.running = true
      · refine ⟨last.journal.push
          (.remark (.budgetSpent limit last.machine.pc)), ?_⟩
        simp [Machine.outcomeWithin, after, exhaust, hrunning]
      · refine ⟨last.journal, ?_⟩
        simp [Machine.outcomeWithin, after, finish, hrunning]

/-- The run of a program that fits is the run of the machine with this program,
but for the remark that it was loaded. -/
theorem runProgram_eq_run
    {σ : Type} [Sink σ] {program : List UInt8} (h : program.length ≤ 256)
    (fuel : Nat) (sink : σ) (budget : Option Nat) :
    runProgram fuel program sink budget =
      .ok ((Session.run fuel ⟨Machine.started program, sink, budget⟩).map
        fun turn => { turn with
          journal :=
            #[.remark (.loaded program.length)] ++ turn.journal }) := by
  simp [runProgram, Session.load, Machine.load_initial h]

/-- The run of a program that fits starts from the machine that holds it. -/
theorem runProgram_eq
    {σ : Type} [Sink σ] {program : List UInt8} (h : program.length ≤ 256)
    (fuel : Nat) (sink : σ) (budget : Option Nat) :
    let last := (Machine.started program).advance (budget.getD fuel) sink #[]
    let ended : Session σ := ⟨last.machine, last.sink, budget⟩
    ∃ journal, runProgram fuel program sink budget =
      .ok ((last.machine.outcomeWithin budget).map fun outcome =>
        ⟨ended, ended.report outcome, journal⟩) := by
  intro last ended
  obtain ⟨journal, hrun⟩ :=
    Session.run_eq fuel ⟨Machine.started program, sink, budget⟩
  refine ⟨#[.remark (.loaded program.length)] ++ journal, ?_⟩
  rw [runProgram_eq_run h, hrun, Option.map_map]
  rfl

end ByteMachine
