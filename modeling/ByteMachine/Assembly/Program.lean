import ByteMachine.Assembly.Layout

/-!
# Assembled programs

The second pass replaces every jump target by its address and joins the bytes of
all statements.  A label may be used before it is defined, because the layout is
complete by then.  The size of the result is not compared with the memory of a
machine; loading does that.
-/

namespace ByteMachine

/-- Assembled bytes, and the addresses of the labels. -/
structure Program where
  bytes : List UInt8
  labels : List (String × Address)
  deriving DecidableEq, Repr

def Target.resolve (labels : List (String × Address)) :
    Target → Except Complaint Address
  | address value => .ok value
  | label name =>
      match labels.lookup name with
      | some value => .ok value
      | none => .error (.labelNotFound name)

def Statement.emit (labels : List (String × Address)) :
    Statement → Except Complaint (List UInt8)
  | instruction i => (i.resolve (Target.resolve labels)).map Instruction.encode
  | data bytes => .ok bytes

def Placed.emit (labels : List (String × Address)) (placed : Placed) :
    Except AssemblyError (List UInt8) :=
  match placed.statement.emit labels with
  | .ok bytes => .ok bytes
  | .error complaint => .error ⟨placed.line, complaint⟩

/-- The bytes of all statements of a layout, in order. -/
def Layout.emit (layout : Layout) : Except AssemblyError (List UInt8) := do
  let parts ← layout.placed.toList.mapM (Placed.emit layout.labels)
  return parts.flatten

/-- Assemble a source text. -/
def assemble (source : String) : Except AssemblyError Program := do
  let layout ← Layout.ofText source.toList
  let bytes ← layout.emit
  return ⟨bytes, layout.labels⟩

end ByteMachine
