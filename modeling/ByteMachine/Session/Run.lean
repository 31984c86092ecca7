import ByteMachine.Session.Basic

/-!
# Runs

A run takes steps until the machine stops or the budget is spent.  The outcome
is read off the machine afterwards: it halted unless it recorded a fault.  The
budget is looked at only while the machine still runs, so a program that ends
exactly on its budget ends as usual.  A run without a budget may not end, and is
described by what happens within a number of steps.
-/

namespace ByteMachine

/-- The outcome that a stopped machine shows. -/
def Machine.outcome (machine : Machine) : Outcome :=
  match machine.lastFault with
  | some fault => .faulted fault.message
  | none => .halted

namespace Session

variable {σ : Type}

/-- The session after some steps of its machine. -/
def after (session : Session σ) (advance : Advance σ) : Session σ :=
  { session with machine := advance.machine, sink := advance.sink }

/-- End a run of which the machine stopped by itself. -/
def finish (session : Session σ) (journal : Array Event) : Turn σ Report :=
  ⟨session, session.report session.machine.outcome, journal⟩

/-- End a run that used up its budget. -/
def exhaust (session : Session σ) (budget : Nat) (journal : Array Event) :
    Turn σ Report :=
  ⟨session, session.report .stepLimit,
    journal.push (.remark (.budgetSpent budget session.machine.pc))⟩

/-- Run for at most `budget` completed instructions. -/
def runWithin [Sink σ] (session : Session σ) (budget : Nat) : Turn σ Report :=
  let advance := session.machine.advance budget session.sink #[]
  if advance.machine.running then
    (session.after advance).exhaust budget advance.journal
  else
    (session.after advance).finish advance.journal

/-- Run to the end; `none` when `fuel` steps do not reach it. -/
def runToEnd [Sink σ] (fuel : Nat) (session : Session σ) :
    Option (Turn σ Report) :=
  let advance := session.machine.advance fuel session.sink #[]
  if advance.machine.running then
    none
  else
    some ((session.after advance).finish advance.journal)

/-- Run under the session's own budget.  With a budget there is always an
answer, and `fuel` is not used. -/
def run [Sink σ] (fuel : Nat) (session : Session σ) : Option (Turn σ Report) :=
  match session.budget with
  | some budget => some (session.runWithin budget)
  | none => session.runToEnd fuel

end Session

/-- Load a program into a new machine and run it. -/
def runProgram {σ : Type} [Sink σ] (fuel : Nat) (program : List UInt8)
    (sink : σ) (budget : Option Nat) :
    Except LoadError (Option (Turn σ Report)) :=
  let loaded := Session.load { sink := sink, budget := budget } program
  match loaded.answer with
  | .error error => .error error
  | .ok () =>
      .ok ((loaded.session.run fuel).map fun turn =>
        { turn with journal := loaded.journal ++ turn.journal })

end ByteMachine
