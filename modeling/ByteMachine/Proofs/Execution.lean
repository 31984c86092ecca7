import ByteMachine.Proofs.FaultMessages
import ByteMachine.Proofs.History
import ByteMachine.Proofs.Trace

/-!
# Executions and runs without a budget

An execution passes on the fault of the step that ends it.  A run throws the
results of its steps away and reads the outcome off the stopped machine.  Both
take the same steps, and they agree on the end because a running machine has no
fault on record: whatever is recorded when it has stopped was recorded by the
last step.  A machine that has stopped does nothing any more, until it is
loaded or reset.
-/

namespace ByteMachine

namespace Machine

variable {σ : Type} [Sink σ]

/-! ## Executions as steps -/

/-- The result of an execution that has led to this machine. -/
def verdict (machine : Machine) : Except Fault Unit :=
  match machine.lastFault with
  | some fault => .error fault
  | none => .ok ()

theorem result_of_retired
    {machine : Machine} {sink : σ} {instruction : Instruction Address}
    (h : machine.deed? sink = some (.retired instruction)) :
    ∃ status, (machine.step sink).result = .ok status := by
  cases hresult : (machine.step sink).result with
  | ok status => exact ⟨status, rfl⟩
  | error fault =>
      cases h.symm.trans (deed?_of_error (running_of_deed? h) hresult)

/-- An execution takes the steps of the machine until it stops, and its result
is what the machine has then on record. -/
theorem execute_eq_advance
    {machine : Machine} (h : machine.lastFault = none) (fuel : Nat)
    (sink : σ) (journal : Array Event) :
    machine.execute fuel sink journal =
      if (machine.advance fuel sink journal).machine.running then none
      else some ⟨machine.advance fuel sink journal,
        (machine.advance fuel sink journal).machine.verdict⟩ := by
  have hverdict : machine.verdict = .ok () := by
    rw [verdict, h]
  induction fuel generalizing machine sink journal with
  | zero => rw [execute, advance, hverdict]
  | succ fuel ih =>
      by_cases hrunning : machine.running = true
      · rw [execute, if_pos hrunning, advance_of_running hrunning]
        rcases retired_or_faulted hrunning sink with
          ⟨instruction, hdeed⟩ | ⟨fault, hresult⟩
        · obtain ⟨status, hresult⟩ := result_of_retired hdeed
          have hrecord := (step_of_retired hdeed).2.1.trans h
          simp only [hresult]
          exact ih hrecord _ _ (by rw [verdict, hrecord])
        · obtain ⟨-, hrecord, hstopped⟩ := step_of_faulted hresult
          simp only [hresult, advance_of_stopped hstopped, hstopped, verdict,
            hrecord]
          rfl
      · have hstopped := Bool.eq_false_iff.mpr hrunning
        rw [execute, if_neg hrunning, advance_of_stopped hstopped,
          if_neg hrunning, hverdict]

/-- The result of an execution and the outcome of a run tell the same. -/
theorem verdict_iff_outcome (machine : Machine) :
    (machine.verdict = .ok () ↔ machine.outcome = .halted) ∧
      ∀ fault, machine.verdict = .error fault ↔
        machine.outcome = .faulted fault.message := by
  rw [verdict, outcome]
  cases machine.lastFault with
  | none => simp
  | some recorded =>
      refine ⟨by simp, ?_⟩
      intro fault
      simp only [Except.error.injEq, Outcome.faulted.injEq]
      exact Fault.message_injective.eq_iff.symm

/-! ## Stopped machines -/

section Stopped

variable {machine : Machine} (h : machine.running = false)
include h

theorem step_eq_of_stopped (sink : σ) :
    machine.step sink = ⟨machine, sink, .ok .halted, []⟩ := by
  simp [step, h]

theorem execute_of_stopped (fuel : Nat) (sink : σ) (journal : Array Event) :
    machine.execute fuel sink journal =
      some ⟨⟨machine, sink, journal⟩, .ok ()⟩ := by
  cases fuel <;> simp [execute, h]

theorem run_of_stopped (fuel : Nat) (sink : σ) (budget : Option Nat) :
    Session.run fuel ⟨machine, sink, budget⟩ =
      some (Session.finish ⟨machine, sink, budget⟩ #[]) := by
  cases budget <;>
    simp [Session.run, Session.runToEnd, Session.runWithin, Session.after,
      advance_of_stopped h, h]

end Stopped

/-- The machines that come of calls other than a reset or a load that is
accepted, each with any sink. -/
inductive Continues (start : Machine) : Machine → Prop
  | refl : Continues start start
  | step {machine : Machine} {σ : Type} [Sink σ]
      (h : Continues start machine) (sink : σ) :
      Continues start (machine.step sink).machine
  | execute {machine : Machine} {σ : Type} [Sink σ] {fuel : Nat} {sink : σ}
      {journal : Array Event} {execution : Execution σ}
      (h : Continues start machine)
      (hexecute : machine.execute fuel sink journal = some execution) :
      Continues start execution.machine
  | run {machine : Machine} {σ : Type} [Sink σ] {fuel : Nat} {sink : σ}
      {budget : Option Nat} {turn : Turn σ Report}
      (h : Continues start machine)
      (hrun : Session.run fuel ⟨machine, sink, budget⟩ = some turn) :
      Continues start turn.session.machine
  | refused {machine : Machine} {program : List UInt8} {error : LoadError}
      (h : Continues start machine)
      (hload : machine.load program = .error error) :
      Continues start machine

/-- A stopped machine stays as it is. -/
theorem Continues.eq_of_stopped
    {start machine : Machine} (h : start.Continues machine)
    (hstopped : start.running = false) : machine = start := by
  induction h with
  | refl => rfl
  | step _ sink ih =>
      rw [ih, step_eq_of_stopped hstopped]
  | execute _ hexecute ih =>
      rw [ih, execute_of_stopped hstopped] at hexecute
      obtain rfl := Option.some.inj hexecute
      rfl
  | run _ hrun ih =>
      rw [ih, run_of_stopped hstopped] at hrun
      obtain rfl := Option.some.inj hrun
      rfl
  | refused _ _ ih => exact ih

end Machine

/-! ## Runs as steps -/

theorem Session.run_without_budget
    {σ : Type} [Sink σ] (fuel : Nat) (machine : Machine) (sink : σ) :
    Session.run fuel ⟨machine, sink, none⟩ =
      let last := machine.advance fuel sink #[]
      if last.machine.running then none
      else some (Session.finish ⟨last.machine, last.sink, none⟩
        last.journal) :=
  rfl

/-- An execution and a run without a budget are the same loop.  Within any
number of steps both end or neither does, with the same machine, sink and
journal; the one returns a fault exactly when the other reports it.  From then
on no call but a reset or an accepted load changes the machine or writes
anything, a step answers that the machine has halted, and every run gives the
same report. -/
theorem execute_matches_run
    {σ : Type} [Sink σ] {past : List Deed} {machine : Machine}
    (hpast : History past machine) (hrunning : machine.running = true)
    (sink : σ) :
    (∀ fuel, (machine.execute fuel sink #[]).map Execution.toAdvance =
      (Session.run fuel ⟨machine, sink, none⟩).map fun turn =>
        ⟨turn.session.machine, turn.session.sink, turn.journal⟩) ∧
    ∀ fuel execution turn, machine.execute fuel sink #[] = some execution →
      Session.run fuel ⟨machine, sink, none⟩ = some turn →
      (execution.result = .ok () ↔ turn.answer.outcome = .halted) ∧
      (∀ fault, execution.result = .error fault ↔
        turn.answer.outcome = .faulted fault.message) ∧
      ∀ later, turn.session.machine.Continues later →
        later = turn.session.machine ∧
        ∀ (τ : Type) [Sink τ] (other : τ),
          later.step other = ⟨later, other, .ok .halted, []⟩ ∧
          (∀ more, later.execute more other #[] =
            some ⟨⟨later, other, #[]⟩, .ok ()⟩) ∧
          ∀ more budget, Session.run more ⟨later, other, budget⟩ =
            some ⟨⟨later, other, budget⟩, turn.answer, #[]⟩ := by
  have hfault := hpast.sound.lastFault hrunning
  constructor
  · intro fuel
    rw [Machine.execute_eq_advance hfault, Session.run_without_budget]
    generalize machine.advance fuel sink #[] = last
    by_cases hgoing : last.machine.running = true
    · simp [hgoing]
    · simp [hgoing, Session.finish]
  intro fuel execution turn hexecute hrun
  rw [Machine.execute_eq_advance hfault] at hexecute
  rw [Session.run_without_budget] at hrun
  generalize machine.advance fuel sink #[] = last at hexecute hrun
  by_cases hgoing : last.machine.running = true
  · simp [hgoing] at hrun
  have hstopped := Bool.eq_false_iff.mpr hgoing
  simp only [hstopped, Bool.false_eq_true, ↓reduceIte, Option.some.injEq]
    at hexecute hrun
  subst hexecute hrun
  obtain ⟨hhalted, hfaulted⟩ := last.machine.verdict_iff_outcome
  refine ⟨hhalted, hfaulted, ?_⟩
  intro later hlater
  obtain rfl : later = last.machine := hlater.eq_of_stopped hstopped
  refine ⟨rfl, ?_⟩
  intro τ _ other
  refine ⟨Machine.step_eq_of_stopped hstopped other, ?_, ?_⟩
  · intro more
    exact Machine.execute_of_stopped hstopped more other #[]
  · intro more budget
    exact Machine.run_of_stopped hstopped more other budget

/-- The second print names no register.  An execution returns that fault, a run
reports its message, and a run after that reports the same without writing. -/
theorem execute_matches_run_fault :
    ∃ turn : Turn Tape Report,
      Session.run 9 ⟨Machine.started [1, 0, 5, 10, 0, 10, 9], {}, none⟩ =
        some turn ∧
      turn.answer.outcome = .faulted "invalid register 9" ∧
      turn.session.run 0 = some ⟨turn.session, turn.answer, #[]⟩ := by
  have hload : Machine.initial.load [1, 0, 5, 10, 0, 10, 9] =
      .ok (Machine.started [1, 0, 5, 10, 0, 10, 9]) :=
    Machine.load_initial (by decide)
  obtain ⟨hsame, hends⟩ := execute_matches_run
    (History.initial.loaded hload) rfl ({} : Tape)
  have hresult : ((Machine.started [1, 0, 5, 10, 0, 10, 9]).execute 9
      ({} : Tape) #[]).map (·.result) =
        some (.error (.invalidRegister 9)) := by
    decide +kernel
  obtain ⟨execution, hexecute, hfault⟩ := Option.map_eq_some_iff.mp hresult
  have hrun := hsame 9
  rw [hexecute, Option.map_some, eq_comm, Option.map_eq_some_iff] at hrun
  obtain ⟨turn, hturn, -⟩ := hrun
  obtain ⟨-, hfaulted, hstays⟩ := hends 9 execution turn hexecute hturn
  obtain ⟨-, hlater⟩ := hstays _ .refl
  obtain ⟨-, -, hagain⟩ := hlater Tape turn.session.sink
  exact ⟨turn, hturn, (hfaulted _).mp hfault, hagain 0 turn.session.budget⟩

end ByteMachine
