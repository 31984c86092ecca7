import ByteMachine.Storage.RegisterBank

/-!
# Reports

The result of a run: how it ended, and the parts of the machine that a caller
wants to see.  A fault appears in a report by its wording alone.
-/

namespace ByteMachine

inductive Outcome where
  | halted
  | faulted (message : String)
  | stepLimit
  deriving DecidableEq, Repr

/-- A machine at the end of a run. -/
structure Report where
  outcome : Outcome
  steps : UInt64
  pc : Address
  sp : UInt16
  registers : RegisterBank
  deriving DecidableEq

namespace Outcome

/-- The word for an outcome in written reports. -/
def status : Outcome → String
  | halted => "halted"
  | faulted _ => "faulted"
  | stepLimit => "step_limit"

/-- The wording of the fault, for an outcome that has one. -/
def fault? : Outcome → Option String
  | faulted message => some message
  | _ => none

end Outcome

/-- A run succeeds when the program halts. -/
def Report.success (report : Report) : Bool :=
  report.outcome = .halted

end ByteMachine
