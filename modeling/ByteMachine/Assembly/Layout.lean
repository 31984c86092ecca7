import ByteMachine.Assembly.SourceLine
import ByteMachine.Assembly.Statement

/-!
# Layout

The first pass over source text gives every statement its address and every
label the address of what follows it.  Labels are only collected here; whether a
jump target is defined is known when the whole text has been read, so a layout
can hold targets that turn out to be undefined.
-/

namespace ByteMachine

/-- A statement with the line it stands on and the address of its first byte. -/
structure Placed where
  line : Nat
  address : Nat
  statement : Statement
  deriving DecidableEq, Repr

/-- The labels and statements of the lines read so far. -/
structure Layout where
  /-- The labels, each defined once, the latest first. -/
  labels : List (String × Address) := []
  /-- The statements in the order of the text. -/
  placed : Array Placed := #[]
  /-- The number of bytes placed, which is the next address. -/
  size : Nat := 0
  deriving DecidableEq, Repr

namespace Layout

/-- Define a label at the next address. -/
def define (line : Nat) (layout : Layout) (name : String) :
    Except AssemblyError Layout :=
  if !isLabelName name then
    .error ⟨line, .invalidLabel name⟩
  else if (layout.labels.lookup name).isSome then
    .error ⟨line, .duplicateLabel name⟩
  else if layout.size < UInt16.size then
    .ok { layout with
      labels := (name, UInt16.ofNat layout.size) :: layout.labels }
  else
    .error ⟨line, .addressOverflow layout.size⟩

/-- Put a statement at the next address. -/
def place (line : Nat) (layout : Layout) (statement : Statement) : Layout :=
  match layout with
  | ⟨labels, placed, size⟩ =>
      ⟨labels, placed.push ⟨line, size, statement⟩, size + statement.size⟩

/-- Read a line: first its labels from left to right, then its statement. -/
def addLine (line : Nat) (layout : Layout) (source : SourceLine) :
    Except AssemblyError Layout := do
  let layout ← source.labels.foldlM (define line) layout
  match source.words with
  | [] => return layout
  | mnemonic :: operands =>
      match Statement.read mnemonic operands with
      | .ok statement => return layout.place line statement
      | .error complaint => throw ⟨line, complaint⟩

def ofText (cs : List Char) : Except AssemblyError Layout :=
  ((Text.lines cs).zipIdx 1).foldlM
    (fun layout numbered =>
      addLine numbered.2 layout (SourceLine.ofText numbered.1)) {}

end Layout
end ByteMachine
