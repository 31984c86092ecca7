import ByteMachine.Fault

/-!
# Changes in place

What works on a machine changes its parts one after the other, and may fault
between two changes.  A fault ends the work and takes nothing back: whatever was
changed before it stays changed.
-/

namespace ByteMachine

/-- A computation that changes a state in place. -/
abbrev Change (S : Type) := ExceptT Fault (StateM S)

/-- Change a part of a state in place. -/
def Change.within {S T α : Type} (part : S → T) (replace : S → T → S)
    (change : Change T α) : Change S α :=
  ExceptT.mk fun state =>
    match change.run.run (part state) with
    | (result, changed) => (result, replace state changed)

end ByteMachine
