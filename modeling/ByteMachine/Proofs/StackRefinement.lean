import ByteMachine.Storage.OperandStack

/-!
# The operand stack as a bounded list

A client of the operand stack sees answers, not cells.  The calls that can be
made on a stack are given a second meaning on plain lists of at most 255 values,
and the square between the two commutes for every call: the stack answers as the
list does, and its view is the list afterwards.  What holds of runs of calls is
then proved on lists and carried over.  Only one thing is not visible in the
list, and is followed on the cells: the lowest one is never written.
-/

namespace ByteMachine

/-- What can be asked of a stack. -/
inductive StackCall where
  | push (value : UInt8)
  | pop
  | clear
  deriving DecidableEq, Repr

/-- A fault, or the value that a call hands out, if it hands out one. -/
abbrev StackAnswer := Except Fault (Option UInt8)

namespace StackCall

/-- The answer to a call, and the stack behind it. -/
def onStack (stack : OperandStack) : StackCall → StackAnswer × OperandStack
  | push value =>
      match (OperandStack.push value).run.run stack with
      | (answer, next) => (answer.map fun _ => none, next)
  | pop =>
      match OperandStack.pop.run.run stack with
      | (answer, next) => (answer.map some, next)
  | clear => (.ok none, stack.clear)

/-- The answer to a call on a list that holds at most 255 values, the top
first, and the list behind it. -/
def onList : List UInt8 → StackCall → StackAnswer × List UInt8
  | values, push value =>
      if values.length < 255 then
        (.ok none, value :: values)
      else
        (.error (.stackUnderflow 0), values)
  | [], pop => (.error (.stackOverflow 255), [])
  | value :: values, pop => (.ok (some value), values)
  | _, clear => (.ok none, [])

/-- The answers to calls made one after the other, and the state behind them. -/
def run {σ : Type} (perform : σ → StackCall → StackAnswer × σ) (state : σ) :
    List StackCall → List StackAnswer × σ
  | [] => ([], state)
  | call :: calls =>
      let answered := perform state call
      let later := run perform answered.2 calls
      (answered.1 :: later.1, later.2)

theorem run_append
    {σ : Type} (perform : σ → StackCall → StackAnswer × σ) (state : σ)
    (front back : List StackCall) :
    run perform state (front ++ back) =
      ((run perform state front).1 ++
          (run perform (run perform state front).2 back).1,
        (run perform (run perform state front).2 back).2) := by
  induction front generalizing state with
  | nil => rfl
  | cons call front ih => simp [run, ih]

end StackCall

/-! ## Single calls -/

namespace OperandStack

theorem getElem?_toList (stack : OperandStack) (i : Nat) :
    stack.toList[i]? = stack.cells[stack.sp.val + 1 + i]? := by
  rw [toList, List.getElem?_drop, Vector.getElem?_toList]

theorem length_toList_add_sp (stack : OperandStack) :
    stack.toList.length + stack.sp.val = 255 := by
  rw [length_toList, depth_add_sp]

/-- While there is room, a push succeeds and writes a cell other than the lowest
one. -/
theorem push_of_length_lt
    {stack : OperandStack} (h : stack.toList.length < 255) (value : UInt8) :
    ∃ next, (push value).run.run stack = (.ok (), next) ∧
      next.toList = value :: stack.toList ∧
      0 < stack.sp.val ∧
      next.cells = stack.cells.set stack.sp.val value stack.sp.isLt := by
  have hsum := stack.length_toList_add_sp
  have hsp : 0 < stack.sp.val := by omega
  have hpush := run_push_of_pos hsp value
  exact ⟨_, hpush, toList_push hpush, hsp, rfl⟩

theorem push_of_length_ge
    {stack : OperandStack} (h : 255 ≤ stack.toList.length) (value : UInt8) :
    (push value).run.run stack = (.error (.stackUnderflow 0), stack) := by
  have hsum := stack.length_toList_add_sp
  have hsp : stack.sp.val = 0 := by omega
  rw [run_push_of_zero hsp, pointer, hsp]
  rfl

/-- A pop hands out the first value of the list, and touches no cell. -/
theorem pop_of_toList_eq_cons
    {stack : OperandStack} {value : UInt8} {values : List UInt8}
    (h : stack.toList = value :: values) :
    ∃ next, pop.run.run stack = (.ok value, next) ∧ next.toList = values ∧
      next.cells = stack.cells := by
  have hsum := stack.length_toList_add_sp
  rw [h, List.length_cons] at hsum
  have hsp : stack.sp.val < 255 := by omega
  have hpop := run_pop_of_lt hsp
  have hview := toList_pop hpop
  rw [h] at hview
  obtain ⟨hvalue, hvalues⟩ := List.cons.inj hview
  rw [← hvalue] at hpop
  exact ⟨_, hpop, hvalues.symm, rfl⟩

theorem pop_of_toList_eq_nil
    {stack : OperandStack} (h : stack.toList = []) :
    pop.run.run stack = (.error (.stackOverflow 255), stack) := by
  have hsum := stack.length_toList_add_sp
  rw [h, List.length_nil] at hsum
  have hsp : stack.sp.val = 255 := by omega
  rw [run_pop_of_ge (Nat.le_of_eq hsp.symm), pointer, hsp]
  rfl

/-- A stack whose calls are those of the list of its values. -/
structure ActsAsList (stack : OperandStack) : Prop where
  /-- The list holds the cells above the stack pointer, from there upwards. -/
  view : ∀ i, stack.toList[i]? = stack.cells[stack.sp.val + 1 + i]?
  depth : stack.depth = stack.toList.length
  push : stack.toList.length < 255 → ∀ value, ∃ next,
    (OperandStack.push value).run.run stack = (.ok (), next) ∧
      next.toList = value :: stack.toList ∧
      0 < stack.sp.val ∧
      next.cells = stack.cells.set stack.sp.val value stack.sp.isLt
  pushFull : 255 ≤ stack.toList.length → ∀ value,
    (StackCall.push value).onStack stack = (.error (.stackUnderflow 0), stack)
  pop : ∀ value values, stack.toList = value :: values → ∃ next,
    OperandStack.pop.run.run stack = (.ok value, next) ∧
      next.toList = values ∧ next.cells = stack.cells
  popEmpty : stack.toList = [] →
    StackCall.pop.onStack stack = (.error (.stackOverflow 255), stack)
  clear : (StackCall.clear.onStack stack).2.toList = []

theorem actsAsList (stack : OperandStack) : stack.ActsAsList where
  view := stack.getElem?_toList
  depth := stack.length_toList.symm
  push h := push_of_length_lt h
  pushFull h value := by
    rw [StackCall.onStack, push_of_length_ge h]
    rfl
  pop _ _ h := pop_of_toList_eq_cons h
  popEmpty h := by
    rw [StackCall.onStack, pop_of_toList_eq_nil h]
    rfl
  clear := toList_empty

end OperandStack

/-! ## Runs of calls -/

namespace StackCall

/-- Each call answers as it does on the list, and leaves the list that it leaves
there. -/
theorem onStack_refines_onList (stack : OperandStack) (call : StackCall) :
    call.onList stack.toList =
      ((call.onStack stack).1, (call.onStack stack).2.toList) := by
  cases call with
  | push value =>
      by_cases hroom : stack.toList.length < 255
      · obtain ⟨next, hpush, hnext, -⟩ :=
          OperandStack.push_of_length_lt hroom value
        rw [onList, if_pos hroom, onStack, hpush, ← hnext]
        rfl
      · have hpush :=
          OperandStack.push_of_length_ge (Nat.not_lt.mp hroom) value
        rw [onList, if_neg hroom, onStack, hpush]
        rfl
  | pop =>
      cases hview : stack.toList with
      | nil =>
          rw [onStack, OperandStack.pop_of_toList_eq_nil hview, hview]
          rfl
      | cons value values =>
          obtain ⟨next, hpop, hnext, -⟩ :=
            OperandStack.pop_of_toList_eq_cons hview
          rw [onStack, hpop, ← hnext]
          rfl
  | clear => exact congrArg (Prod.mk _) OperandStack.toList_empty.symm

theorem run_onStack_refines_run_onList
    (stack : OperandStack) (calls : List StackCall) :
    run onList stack.toList calls =
      ((run onStack stack calls).1, (run onStack stack calls).2.toList) := by
  induction calls generalizing stack with
  | nil => rfl
  | cons call calls ih => simp only [run, onStack_refines_onList, ih]

/-- No call writes to the lowest cell, except that clearing makes it zero. -/
theorem floor_onStack
    {stack : OperandStack} (h : stack.cells[0]? = some 0) (call : StackCall) :
    (call.onStack stack).2.cells[0]? = some 0 := by
  cases call with
  | push value =>
      by_cases hroom : stack.toList.length < 255
      · obtain ⟨next, hpush, -, hsp, hcells⟩ :=
          OperandStack.push_of_length_lt hroom value
        simp only [onStack, hpush, hcells]
        rw [Vector.getElem?_set_ne stack.sp.isLt (Nat.ne_of_gt hsp), h]
      · have hpush :=
          OperandStack.push_of_length_ge (Nat.not_lt.mp hroom) value
        simpa only [onStack, hpush] using h
  | pop =>
      cases hview : stack.toList with
      | nil =>
          simpa only [onStack, OperandStack.pop_of_toList_eq_nil hview] using h
      | cons value values =>
          obtain ⟨next, hpop, -, hcells⟩ :=
            OperandStack.pop_of_toList_eq_cons hview
          simpa only [onStack, hpop, hcells] using h
  | clear => simp [onStack, OperandStack.clear]

theorem floor_run
    {stack : OperandStack} (h : stack.cells[0]? = some 0)
    (calls : List StackCall) :
    (run onStack stack calls).2.cells[0]? = some 0 := by
  induction calls generalizing stack with
  | nil => exact h
  | cons call calls ih => exact ih (floor_onStack h call)

/-! ## Last in, first out -/

theorem run_pushes
    {values below : List UInt8} (h : values.length + below.length ≤ 255) :
    run onList below (values.map push) =
      (List.replicate values.length (.ok none), values.reverse ++ below) := by
  induction values generalizing below with
  | nil => rfl
  | cons value values ih =>
      rw [List.length_cons] at h
      have hroom : below.length < 255 := by omega
      have hlater : values.length + (value :: below).length ≤ 255 := by
        rw [List.length_cons]
        omega
      simp only [List.map_cons, run, onList, if_pos hroom, ih hlater,
        List.length_cons, List.replicate_succ, List.reverse_cons,
        List.append_assoc, List.singleton_append]

theorem run_pops (values below : List UInt8) :
    run onList (values ++ below) (List.replicate values.length pop) =
      (values.map fun value => .ok (some value), below) := by
  induction values with
  | nil => rfl
  | cons value values ih =>
      simp only [List.length_cons, List.replicate_succ, List.cons_append, run,
        onList, ih, List.map_cons]

/-- What is pushed comes back in reverse order, and what was below it is left as
it was. -/
theorem run_pushes_pops
    {values below : List UInt8} (h : values.length + below.length ≤ 255) :
    run onList below
        (values.map push ++ List.replicate values.length pop) =
      (List.replicate values.length (.ok none) ++
        values.reverse.map (fun value => .ok (some value)), below) := by
  have hpops := run_pops values.reverse below
  rw [List.length_reverse] at hpops
  rw [run_append, run_pushes h, hpops]

end StackCall

/-- The operand stack refines a list of at most 255 values.  After any calls
from the empty stack, the answers are those of the list and the cells above the
stack pointer hold the list; every further call then acts as on the list, a call
that fails changes nothing, and no push or pop ever writes to the lowest cell.
Values that fit and are pushed come back in reverse order. -/
theorem stack_refines_bounded_list (calls : List StackCall) :
    let stack := (StackCall.run StackCall.onStack .empty calls).2
    StackCall.run StackCall.onList [] calls =
      ((StackCall.run StackCall.onStack .empty calls).1, stack.toList) ∧
    stack.ActsAsList ∧ stack.cells[0]? = some 0 ∧
    ∀ values : List UInt8, values.length ≤ 255 - stack.depth →
      ∃ final,
        StackCall.run StackCall.onStack stack
            (values.map .push ++ List.replicate values.length .pop) =
          (List.replicate values.length (.ok none) ++
            values.reverse.map (fun value => .ok (some value)), final) ∧
        final.toList = stack.toList := by
  intro stack
  have hrun := StackCall.run_onStack_refines_run_onList .empty calls
  rw [OperandStack.toList_empty] at hrun
  have hfloor : OperandStack.empty.cells[0]? = some 0 := by
    simp [OperandStack.empty]
  refine ⟨hrun, stack.actsAsList, StackCall.floor_run hfloor calls, ?_⟩
  intro values hroom
  have hfit : values.length + stack.toList.length ≤ 255 := by
    have hsum := stack.length_toList_add_sp
    rw [OperandStack.length_toList] at hsum ⊢
    omega
  have hlist := StackCall.run_pushes_pops hfit
  rw [StackCall.run_onStack_refines_run_onList] at hlist
  obtain ⟨hanswers, hfinal⟩ := Prod.mk.inj hlist
  exact ⟨_, Prod.ext hanswers rfl, hfinal⟩

/-- A value is popped and another one pushed over its cell, with two more on
top of it. -/
theorem stack_refines_bounded_list_overwritten :
    let stack := (StackCall.run StackCall.onStack .empty
      [.push 1, .pop, .pop, .push 7]).2
    stack.toList = [7] ∧ ∃ final,
      StackCall.run StackCall.onStack stack [.push 3, .push 4, .pop, .pop] =
        ([.ok none, .ok none, .ok (some 4), .ok (some 3)], final) ∧
      final.toList = [7] := by
  intro stack
  have hview : stack.toList = [7] := by decide +kernel
  have hroom : [3, 4].length ≤ 255 - stack.depth := by decide +kernel
  obtain ⟨-, -, -, hlast⟩ :=
    stack_refines_bounded_list [.push 1, .pop, .pop, .push 7]
  obtain ⟨final, hrun, hfinal⟩ := hlast [3, 4] hroom
  exact ⟨hview, final, hrun, hfinal.trans hview⟩

end ByteMachine
