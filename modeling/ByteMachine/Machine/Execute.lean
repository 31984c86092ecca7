import ByteMachine.Machine.Step

/-!
# Executing to the end

A machine may run forever, so its execution is described by what happens within
a number of steps.  `Machine.advance` takes steps while the machine runs, at
most so many; `Machine.execute` stops at the first fault and passes it on, and
has no answer while the machine still runs.
-/

namespace ByteMachine

/-- A machine after some steps, its sink, and the journal of those steps. -/
structure Advance (σ : Type) where
  machine : Machine
  sink : σ
  journal : Array Event

/-- The end of an execution: the fault that ended it, or none when the machine
halted. -/
structure Execution (σ : Type) extends Advance σ where
  result : Except Fault Unit

namespace Machine

variable {σ : Type}

/-- Take steps while the machine runs, at most `limit` of them. -/
def advance [Sink σ] : (limit : Nat) → Machine → σ → Array Event → Advance σ
  | 0, machine, sink, journal => ⟨machine, sink, journal⟩
  | limit + 1, machine, sink, journal =>
      if machine.running then
        let step := machine.step sink
        advance limit step.machine step.sink (journal.appendList step.events)
      else
        ⟨machine, sink, journal⟩

/-- Advancing in two stages is advancing once. -/
theorem advance_add
    [Sink σ] (m n : Nat) (machine : Machine) (sink : σ)
    (journal : Array Event) :
    machine.advance (m + n) sink journal =
      let first := machine.advance m sink journal
      first.machine.advance n first.sink first.journal := by
  induction m generalizing machine sink journal with
  | zero => simp [advance]
  | succ m ih =>
    rw [Nat.succ_add]
    by_cases h : machine.running
    · simp only [advance, h, ↓reduceIte]
      exact ih _ _ _
    · cases n <;> simp [advance, h]

/-- Take steps until the machine stops or a step faults; `none` when `fuel`
steps are not enough for that. -/
def execute [Sink σ] :
    (fuel : Nat) → Machine → σ → Array Event → Option (Execution σ)
  | 0, machine, sink, journal =>
      if machine.running then none else some ⟨⟨machine, sink, journal⟩, .ok ()⟩
  | fuel + 1, machine, sink, journal =>
      if machine.running then
        let step := machine.step sink
        let journal := journal.appendList step.events
        match step.result with
        | .error fault =>
            some ⟨⟨step.machine, step.sink, journal⟩, .error fault⟩
        | .ok _ => execute fuel step.machine step.sink journal
      else
        some ⟨⟨machine, sink, journal⟩, .ok ()⟩

end Machine
end ByteMachine
