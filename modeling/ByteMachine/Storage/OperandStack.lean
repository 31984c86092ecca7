import ByteMachine.Storage.Change

/-!
# The operand stack

The stack grows downwards through 256 cells.  The stack pointer is the cell that
the next push writes, so the values on the stack are the cells above it, and the
lowest cell stays free: a stack holds at most 255 values.  A popped value is not
erased from its cell.
-/

namespace ByteMachine

/-- The number of cells of a stack. -/
abbrev OperandStack.size : Nat := 256

/-- The cells of the stack and the pointer to the next free one. -/
structure OperandStack where
  cells : Vector UInt8 OperandStack.size
  sp : Fin OperandStack.size
  deriving DecidableEq

namespace OperandStack

/-- The pointer of the empty stack. -/
abbrev emptyPointer : Fin size := ⟨size - 1, by decide⟩

/-- The empty stack over cells of zeros. -/
def empty : OperandStack :=
  ⟨Vector.replicate size 0, emptyPointer⟩

def clear (stack : OperandStack) : OperandStack :=
  { stack with cells := Vector.replicate size 0, sp := emptyPointer }

/-- The stack pointer as a word. -/
def pointer (stack : OperandStack) : UInt16 :=
  UInt16.ofNat stack.sp.val

def depth (stack : OperandStack) : Nat :=
  emptyPointer.val - stack.sp.val

theorem depth_add_sp (stack : OperandStack) :
    stack.depth + stack.sp.val = 255 :=
  Nat.sub_add_cancel (Nat.le_of_lt_succ stack.sp.isLt)

/-- The values on the stack, the top first. -/
def toList (stack : OperandStack) : List UInt8 :=
  stack.cells.toList.drop (stack.sp.val + 1)

/-- Put a value on top: the cell at the pointer is written, and then the pointer
moves down. -/
def push (value : UInt8) : Change OperandStack Unit := do
  let stack ← get
  if stack.sp.val = 0 then
    throw (.stackUnderflow stack.pointer)
  else
    set { stack with cells := stack.cells.set stack.sp.val value }
    modify fun stack => { stack with sp := ⟨stack.sp.val - 1, by omega⟩ }

/-- Take the value on top: the pointer moves up, and then the cell there is
read. -/
def pop : Change OperandStack UInt8 := do
  let stack ← get
  if h : stack.sp.val < emptyPointer.val then
    let raised : Fin size := ⟨stack.sp.val + 1, Nat.add_lt_of_lt_sub h⟩
    set { stack with sp := raised }
    return stack.cells[raised]
  else
    throw (.stackOverflow stack.pointer)

/-- A push with no free cell left changes nothing. -/
theorem run_push_of_zero
    {stack : OperandStack} (h : stack.sp.val = 0) (value : UInt8) :
    (push value).run.run stack =
      (.error (.stackUnderflow stack.pointer), stack) := by
  unfold push
  change StateT.run (ExceptT.run (ite _ _ _)) stack = _
  rw [if_pos h]
  rfl

theorem run_push_of_pos
    {stack : OperandStack} (h : 0 < stack.sp.val) (value : UInt8) :
    (push value).run.run stack =
      (.ok (), ⟨stack.cells.set stack.sp.val value,
        ⟨stack.sp.val - 1, by omega⟩⟩) := by
  unfold push
  change StateT.run (ExceptT.run (ite _ _ _)) stack = _
  rw [if_neg (Nat.ne_of_gt h)]
  rfl

/-- A pop from the empty stack changes nothing. -/
theorem run_pop_of_ge
    {stack : OperandStack} (h : emptyPointer.val ≤ stack.sp.val) :
    pop.run.run stack = (.error (.stackOverflow stack.pointer), stack) := by
  unfold pop
  change StateT.run (ExceptT.run (dite _ _ _)) stack = _
  rw [dif_neg (Nat.not_lt.mpr h)]
  rfl

theorem run_pop_of_lt
    {stack : OperandStack} (h : stack.sp.val < emptyPointer.val) :
    pop.run.run stack =
      (.ok (stack.cells.get ⟨stack.sp.val + 1, Nat.add_lt_of_lt_sub h⟩),
        ⟨stack.cells, ⟨stack.sp.val + 1, Nat.add_lt_of_lt_sub h⟩⟩) := by
  unfold pop
  change StateT.run (ExceptT.run (dite _ _ _)) stack = _
  rw [dif_pos h]
  rfl

/-! ## The stack as a list -/

@[simp]
theorem length_toList (stack : OperandStack) :
    stack.toList.length = stack.depth := by
  rw [toList, depth, List.length_drop, Vector.length_toList, Nat.add_comm,
    Nat.sub_add_eq]

@[simp]
theorem toList_empty : empty.toList = [] := by
  apply List.eq_nil_of_length_eq_zero
  rw [length_toList]
  rfl

theorem toList_push
    {stack next : OperandStack} {value : UInt8}
    (h : (push value).run.run stack = (.ok (), next)) :
    next.toList = value :: stack.toList := by
  rcases Nat.eq_zero_or_pos stack.sp.val with hsp | hsp
  · rw [run_push_of_zero hsp] at h
    cases h
  · rw [run_push_of_pos hsp] at h
    cases h
    simp only [toList, Vector.toList_set]
    rw [Nat.sub_add_cancel hsp, List.drop_eq_getElem_cons (by simp),
      List.drop_set_of_lt (by omega)]
    simp

theorem toList_pop
    {stack next : OperandStack} {value : UInt8}
    (h : pop.run.run stack = (.ok value, next)) :
    stack.toList = value :: next.toList := by
  rcases Nat.lt_or_ge stack.sp.val emptyPointer.val with hsp | hsp
  · rw [run_pop_of_lt hsp] at h
    cases h
    have hlt : stack.sp.val + 1 < stack.cells.toList.length := by
      rw [Vector.length_toList]
      exact Nat.add_lt_of_lt_sub hsp
    simp only [toList]
    rw [List.drop_eq_getElem_cons hlt, Vector.getElem_toList]
    rfl
  · rw [run_pop_of_ge hsp] at h
    cases h

end OperandStack
end ByteMachine
