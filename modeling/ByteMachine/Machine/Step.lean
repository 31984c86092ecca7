import ByteMachine.Machine.Perform

/-!
# One step

A running machine fetches an instruction and performs it.  When that succeeds
the instruction is counted.  When it faults the machine stops where it is,
records the fault and offers a line about it to the sink.  A stopped machine
does nothing.
-/

namespace ByteMachine

/-- What a step leaves behind. -/
structure Step (σ : Type) where
  machine : Machine
  sink : σ
  result : Except Fault Status
  /-- The remarks made and the lines offered during the step, in order. -/
  events : List Event

/-- The line that a faulting machine offers to its sink. -/
def faultLine (fault : Fault) : String :=
  "fault: " ++ fault.message ++ "\n"

namespace Progress

variable {σ : Type}

/-- End a step with an instruction completed. -/
def finish (progress : Progress σ) (status : Status) : Step σ :=
  let counted :=
    { progress.machine with steps := progress.machine.steps + 1 }
  match status with
  | .running =>
      { machine := counted
        sink := progress.sink
        result := .ok .running
        events := progress.events }
  | .halted =>
      { machine := { counted with running := false }
        sink := progress.sink
        result := .ok .halted
        events := progress.events ++
          [.remark (.halted counted.pc counted.steps)] }

/-- End a step with a fault.  Whether the sink takes the line about the fault
makes no difference to the machine. -/
def fail [Sink σ] (progress : Progress σ) (fault : Fault) : Step σ :=
  { machine :=
      { progress.machine with running := false, lastFault := some fault }
    sink := (Sink.write progress.sink (faultLine fault)).1
    result := .error fault
    events := progress.events ++
      [.remark (.faulted progress.machine.pc fault),
        .offered (faultLine fault)] }

end Progress

namespace Machine

variable {σ : Type} [Sink σ]

/-- Fetch the instruction at the program counter and perform it. -/
def fetchAndPerform : Action σ Status := do
  let start ← get
  let instruction ← Action.onPc (fetchInstruction start.machine.image)
  Action.say (.fetched start.machine.pc instruction)
  instruction.perform

/-- Take one step. -/
def step (machine : Machine) (sink : σ) : Step σ :=
  if machine.running then
    match fetchAndPerform.run.run ⟨machine, sink, []⟩ with
    | (.ok status, progress) => progress.finish status
    | (.error fault, progress) => progress.fail fault
  else
    { machine := machine, sink := sink, result := .ok .halted, events := [] }

end Machine
end ByteMachine
