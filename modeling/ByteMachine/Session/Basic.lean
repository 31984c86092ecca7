import ByteMachine.Machine.Execute
import ByteMachine.Report.Basic

/-!
# Sessions

A session is a machine together with the sink it writes to and the budget for
its runs.  Every operation on a session answers with the new session, its own
result and the journal of what happened, so that a history of operations is a
plain iteration.
-/

namespace ByteMachine

/-- A machine at work. -/
structure Session (σ : Type) where
  machine : Machine := Machine.initial
  sink : σ
  /-- The number of instructions that one run may complete; `none` is no bound.
  -/
  budget : Option Nat := none

/-- What an operation on a session leaves behind. -/
structure Turn (σ α : Type) where
  session : Session σ
  answer : α
  journal : Array Event

namespace Session

variable {σ : Type}

/-- Load a program; a program that does not fit changes nothing. -/
def load (session : Session σ) (program : List UInt8) :
    Turn σ (Except LoadError Unit) :=
  match session.machine.load program with
  | .ok machine =>
      ⟨{ session with machine := machine }, .ok (),
        #[.remark (.loaded program.length)]⟩
  | .error error => ⟨session, .error error, #[]⟩

/-- Put the machine back to its first state; sink and budget stay. -/
def reset (session : Session σ) : Turn σ Unit :=
  ⟨{ session with machine := session.machine.reset }, (), #[.remark .reset]⟩

def step [Sink σ] (session : Session σ) : Turn σ (Except Fault Status) :=
  let step := session.machine.step session.sink
  ⟨{ session with machine := step.machine, sink := step.sink }, step.result,
    step.events.toArray⟩

/-- Execute to the halt or the first fault, without regard to the budget; `none`
when `fuel` steps do not reach it. -/
def execute [Sink σ] (fuel : Nat) (session : Session σ) :
    Option (Turn σ (Except Fault Unit)) :=
  (session.machine.execute fuel session.sink #[]).map fun execution =>
    ⟨{ session with machine := execution.machine, sink := execution.sink },
      execution.result, execution.journal⟩

/-- The report on the machine as it is, for a given outcome. -/
def report (session : Session σ) (outcome : Outcome) : Report where
  outcome := outcome
  steps := session.machine.steps
  pc := session.machine.pc
  sp := session.machine.stack.pointer
  registers := session.machine.registers

end Session
end ByteMachine
