import ByteMachine.Fault

/-!
# Sinks

A machine offers its lines of output to a sink, which takes a line or refuses it
with a reason.  The machine uses nothing else of a sink, so every statement
about machines can be made for all sinks.  The sink that is used in practice is
a `Tape`: it keeps what it accepted and may be limited to a number of
characters.  Output lines are plain ASCII, so that a character is a byte.
-/

namespace ByteMachine

/-- What can be written to, line by line.  A refusal still leaves a new state,
because part of the line may have been accepted. -/
class Sink (σ : Type) where
  write : σ → String → σ × Option SinkFailure

/-- A bound on what a tape accepts, and the reason it gives beyond it. -/
structure Limit where
  left : Nat
  failure : SinkFailure
  deriving DecidableEq, Repr

/-- A sink that records. -/
structure Tape where
  /-- The text accepted so far. -/
  accepted : String := ""
  /-- The bound on further text; `none` accepts everything. -/
  limit : Option Limit := none
  deriving DecidableEq, Repr

namespace Tape

/-- Write a line to a tape: a limited tape accepts as much of it as its limit
allows, and refuses when that is not all. -/
def write (tape : Tape) (line : String) : Tape × Option SinkFailure :=
  match tape with
  | ⟨accepted, none⟩ => (⟨accepted ++ line, none⟩, none)
  | ⟨accepted, some ⟨left, failure⟩⟩ =>
      if line.length ≤ left then
        (⟨accepted ++ line, some ⟨left - line.length, failure⟩⟩, none)
      else
        (⟨accepted ++ String.ofList (line.toList.take left), some ⟨0, failure⟩⟩,
          some failure)

instance : Sink Tape where
  write := write

end Tape
end ByteMachine
