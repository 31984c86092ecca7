import ByteMachine.Proofs.Faulting
import ByteMachine.Proofs.Runs

/-!
# Traces

A trace lists the instructions that a machine completes one behind the other,
each with the machine that fetched it.  While it lasts nothing else happens, so
that a trace determines the machine and the sink at its end and the number of
steps between them.  A number of steps of a running machine goes through a
trace and then ends in one of three ways, which `Machine.Course` lists: all
steps are used up, the last instruction was a halt, or the next one faults.
What is said about runs is read off their course.
-/

namespace ByteMachine

/-- An instruction that was completed, and the machine that fetched it. -/
structure Moment where
  machine : Machine
  instruction : Instruction Address

namespace Machine

variable {σ : Type} [Sink σ]

/-! ## Steps that complete an instruction, and steps that do not -/

section Steps

variable {machine : Machine} {sink : σ} {instruction : Instruction Address}
  {fault : Fault}

theorem running_of_deed?
    {deed : Deed} (h : machine.deed? sink = some deed) :
    machine.running = true := by
  by_contra hstopped
  rw [(step_of_stopped (Bool.eq_false_iff.mpr hstopped) sink).2] at h
  cases h

/-- The machine behind an instruction that was completed: only a halt stops
it. -/
theorem step_of_retired
    (h : machine.deed? sink = some (.retired instruction)) :
    (machine.step sink).machine.steps = machine.steps + 1 ∧
      (machine.step sink).machine.lastFault = machine.lastFault ∧
      ((machine.step sink).machine.running = true ↔ instruction ≠ .halt) := by
  obtain ⟨deed, hdeed, hto⟩ := step_of_running (running_of_deed? h) sink
  obtain rfl := Option.some.inj (h.symm.trans hdeed)
  generalize (machine.step sink).machine = next at hto ⊢
  cases hto with
  | @retired _ effect _ _ heffect =>
      have hhalts := (Instruction.completes_of_effect heffect).halts
      refine ⟨rfl, rfl, ?_⟩
      rw [retire, Bool.not_eq_true', ← Bool.not_eq_true, hhalts]

/-- The machine behind a fault. -/
theorem step_of_faulted
    (h : (machine.step sink).result = .error fault) :
    (machine.step sink).machine.steps = machine.steps ∧
      (machine.step sink).machine.lastFault = some fault ∧
      (machine.step sink).machine.running = false := by
  obtain ⟨next, -, hstop⟩ := stop_of_step_error h
  rw [hstop]
  exact ⟨rfl, rfl, rfl⟩

/-- A step of a running machine completes an instruction or faults. -/
theorem retired_or_faulted
    (h : machine.running = true) (sink : σ) :
    (∃ instruction, machine.deed? sink = some (.retired instruction)) ∨
      ∃ fault, (machine.step sink).result = .error fault := by
  obtain ⟨deed, hdeed, -⟩ := step_of_running h sink
  cases hresult : (machine.step sink).result with
  | error fault => exact Or.inr ⟨fault, rfl⟩
  | ok status =>
      refine Or.inl ?_
      simp only [deed?, h, hresult, ↓reduceIte] at hdeed ⊢
      cases hfetch : machine.fetch.1 with
      | error fault => simp [hfetch] at hdeed
      | ok instruction => exact ⟨instruction, rfl⟩

end Steps

/-! ## Traces -/

/-- The machine completes the instructions of these moments, one behind the
other, and comes with its sink to the last machine and sink. -/
inductive Trace : Machine → σ → List Moment → Machine → σ → Prop
  | nil (machine : Machine) (sink : σ) : Trace machine sink [] machine sink
  | cons {machine last : Machine} {sink after : σ}
      {instruction : Instruction Address} {moments : List Moment}
      (hdeed : machine.deed? sink = some (.retired instruction))
      (hrest : Trace (machine.step sink).machine (machine.step sink).sink
        moments last after) :
      Trace machine sink (⟨machine, instruction⟩ :: moments) last after

section Traces

variable {machine last : Machine} {sink after : σ} {moments : List Moment}

theorem Trace.append
    {final : Machine} {left : σ} {more : List Moment}
    (h : machine.Trace sink moments last after)
    (hmore : last.Trace after more final left) :
    machine.Trace sink (moments ++ more) final left := by
  induction h with
  | nil => exact hmore
  | cons hdeed _ ih => exact .cons hdeed (ih hmore)

/-- A trace can be cut anywhere. -/
theorem Trace.exists_of_append
    {front back : List Moment}
    (h : machine.Trace sink (front ++ back) last after) :
    ∃ middle between, machine.Trace sink front middle between ∧
      middle.Trace between back last after := by
  induction front generalizing machine sink with
  | nil => exact ⟨machine, sink, .nil machine sink, h⟩
  | cons moment front ih =>
      cases h with
      | cons hdeed hrest =>
          obtain ⟨middle, between, hfront, hback⟩ := ih hrest
          exact ⟨middle, between, .cons hdeed hfront, hback⟩

/-- As many steps as a trace has moments lead to its end. -/
theorem Trace.advance_eq
    (h : machine.Trace sink moments last after) (journal : Array Event) :
    (machine.advance moments.length sink journal).machine = last ∧
      (machine.advance moments.length sink journal).sink = after := by
  induction h generalizing journal with
  | nil => exact ⟨rfl, rfl⟩
  | cons hdeed _ ih =>
      rw [List.length_cons, advance_of_running (running_of_deed? hdeed)]
      exact ih _

/-- Each moment counts as one step. -/
theorem Trace.steps_eq
    (h : machine.Trace sink moments last after) :
    last.steps = machine.steps + UInt64.ofNat moments.length := by
  induction h with
  | nil => exact (UInt64.add_zero _).symm
  | cons hdeed _ ih =>
      rw [ih, (step_of_retired hdeed).1, List.length_cons, UInt64.add_assoc,
        UInt64.add_comm 1, UInt64.ofNat_add]
      rfl

theorem Trace.lastFault_eq
    (h : machine.Trace sink moments last after) :
    last.lastFault = machine.lastFault := by
  induction h with
  | nil => rfl
  | cons hdeed _ ih => rw [ih, (step_of_retired hdeed).2.1]

theorem Trace.eq_nil_of_stopped
    (h : machine.Trace sink moments last after)
    (hstopped : machine.running = false) : moments = [] := by
  cases h with
  | nil => rfl
  | cons hdeed _ =>
      have hrunning := running_of_deed? hdeed
      rw [hstopped] at hrunning
      cases hrunning

/-- A machine still runs at the end of a trace when none of the instructions
was a halt. -/
theorem Trace.running_iff
    (h : machine.Trace sink moments last after)
    (hrunning : machine.running = true) :
    last.running = true ↔ ∀ moment ∈ moments, moment.instruction ≠ .halt := by
  induction h with
  | nil => simpa using hrunning
  | @cons machine last sink after instruction moments hdeed hrest ih =>
      obtain ⟨-, -, hgoing⟩ := step_of_retired hdeed
      rw [List.forall_mem_cons, ← hgoing]
      by_cases hnext : (machine.step sink).machine.running = true
      · rw [ih hnext]
        exact (and_iff_right hnext).symm
      · -- A stopped machine completes nothing more.
        obtain rfl := hrest.eq_nil_of_stopped (Bool.eq_false_iff.mpr hnext)
        cases hrest with
        | nil => simp

end Traces

/-! ## Courses of a number of steps -/

/-- The ways in which a number of steps can end. -/
inductive Ending where
  | unfinished
  | halted
  | faulted (fault : Fault)
  deriving DecidableEq, Repr

/-- The outcome of a run that ends in the given way, where a run that is not
finished was ended by its budget. -/
def Ending.outcome : Ending → Outcome
  | unfinished => .stepLimit
  | halted => .halted
  | faulted fault => .faulted fault.message

/-- What at most `limit` steps of a running machine do: they go through the
moments of a trace, and then the steps are used up, or one more step completes
a halt, or one more step faults. -/
inductive Course (machine : Machine) (sink : σ) (limit : Nat) :
    List Moment → Ending → Machine → σ → Prop
  | unfinished {moments : List Moment} {last : Machine} {after : σ}
      (htrace : machine.Trace sink moments last after)
      (hlength : moments.length = limit) (hrunning : last.running = true) :
      Course machine sink limit moments .unfinished last after
  | halted {moments : List Moment} {last : Machine} {after : σ}
      (htrace : machine.Trace sink moments last after)
      (hlength : moments.length < limit)
      (hdeed : last.deed? after = some (.retired .halt)) :
      Course machine sink limit (moments ++ [⟨last, .halt⟩]) .halted
        (last.step after).machine (last.step after).sink
  | faulted {moments : List Moment} {last : Machine} {after : σ}
      {fault : Fault} (htrace : machine.Trace sink moments last after)
      (hlength : moments.length < limit)
      (hresult : (last.step after).result = .error fault) :
      Course machine sink limit moments (.faulted fault)
        (last.step after).machine (last.step after).sink

section Courses

variable {machine last : Machine} {sink after : σ} {limit : Nat}
  {moments : List Moment} {ending : Ending}

theorem Course.cons
    {instruction : Instruction Address}
    (hdeed : machine.deed? sink = some (.retired instruction))
    (h : (machine.step sink).machine.Course (machine.step sink).sink limit
      moments ending last after) :
    machine.Course sink (limit + 1) (⟨machine, instruction⟩ :: moments) ending
      last after := by
  cases h with
  | unfinished htrace hlength hrunning =>
      exact .unfinished (.cons hdeed htrace) (congrArg Nat.succ hlength)
        hrunning
  | halted htrace hlength hhalt =>
      exact .halted (.cons hdeed htrace) (Nat.succ_lt_succ hlength) hhalt
  | faulted htrace hlength hresult =>
      exact .faulted (.cons hdeed htrace) (Nat.succ_lt_succ hlength) hresult

/-- Every number of steps of a running machine has a course. -/
theorem exists_course
    (h : machine.running = true) (limit : Nat) (sink : σ)
    (journal : Array Event) :
    ∃ moments ending, machine.Course sink limit moments ending
      (machine.advance limit sink journal).machine
      (machine.advance limit sink journal).sink := by
  induction limit generalizing machine sink journal with
  | zero => exact ⟨[], .unfinished, .unfinished (.nil machine sink) rfl h⟩
  | succ limit ih =>
      rw [advance_of_running h]
      rcases retired_or_faulted h sink with
        ⟨instruction, hdeed⟩ | ⟨fault, hresult⟩
      · by_cases hgoing : (machine.step sink).machine.running = true
        · obtain ⟨moments, ending, hcourse⟩ := ih hgoing _ _
          exact ⟨_, ending, hcourse.cons hdeed⟩
        · have hhalt := mt (step_of_retired hdeed).2.2.mpr hgoing
          obtain rfl := not_ne_iff.mp hhalt
          rw [advance_of_stopped (Bool.eq_false_iff.mpr hgoing)]
          exact ⟨_, .halted, .halted (.nil machine sink)
            (Nat.succ_pos limit) hdeed⟩
      · obtain ⟨-, -, hstopped⟩ := step_of_faulted hresult
        rw [advance_of_stopped hstopped]
        exact ⟨[], .faulted fault, .faulted (.nil machine sink)
          (Nat.succ_pos limit) hresult⟩

/-- Behind a trace, a step that stops the machine is the last one. -/
theorem Trace.advance_of_stopping_step
    (h : machine.Trace sink moments last after)
    (hlength : moments.length < limit) (hrunning : last.running = true)
    (hstopped : (last.step after).machine.running = false)
    (journal : Array Event) :
    (machine.advance limit sink journal).machine = (last.step after).machine ∧
      (machine.advance limit sink journal).sink = (last.step after).sink := by
  obtain ⟨more, rfl⟩ := Nat.exists_eq_add_of_lt hlength
  obtain ⟨hmachine, hsink⟩ := h.advance_eq journal
  rw [Nat.add_assoc]
  simp only [advance_add, hmachine, hsink, advance_of_running hrunning,
    advance_of_stopped hstopped]
  exact ⟨trivial, trivial⟩

theorem stopped_of_halt
    (h : machine.deed? sink = some (.retired .halt)) :
    (machine.step sink).machine.running = false := by
  apply Bool.eq_false_iff.mpr
  intro hrunning
  exact (step_of_retired h).2.2.mp hrunning rfl

/-- A course determines where the steps lead. -/
theorem Course.advance_eq
    (h : machine.Course sink limit moments ending last after)
    (journal : Array Event) :
    (machine.advance limit sink journal).machine = last ∧
      (machine.advance limit sink journal).sink = after := by
  cases h with
  | unfinished htrace hlength =>
      rw [← hlength]
      exact htrace.advance_eq journal
  | halted htrace hlength hdeed =>
      exact htrace.advance_of_stopping_step hlength (running_of_deed? hdeed)
        (stopped_of_halt hdeed) journal
  | faulted htrace hlength hresult =>
      exact htrace.advance_of_stopping_step hlength
        (running_of_step_error hresult) (step_of_faulted hresult).2.2 journal

/-- The moments of a course are those of a trace. -/
theorem Course.exists_trace
    (h : machine.Course sink limit moments ending last after) :
    ∃ middle between, machine.Trace sink moments middle between := by
  cases h with
  | unfinished htrace | faulted htrace => exact ⟨_, _, htrace⟩
  | halted htrace _ hdeed =>
      exact ⟨_, _, htrace.append (.cons hdeed (.nil _ _))⟩

theorem Course.steps_eq
    (h : machine.Course sink limit moments ending last after) :
    last.steps = machine.steps + UInt64.ofNat moments.length := by
  cases h with
  | unfinished htrace => exact htrace.steps_eq
  | halted htrace _ hdeed =>
      exact (htrace.append (.cons hdeed (.nil _ _))).steps_eq
  | faulted htrace _ hresult =>
      rw [(step_of_faulted hresult).1, htrace.steps_eq]

/-- The outcome of a run is told by its course, if the machine had no fault on
record when the run began. -/
theorem Course.outcome_eq
    (h : machine.Course sink limit moments ending last after)
    (hfault : machine.lastFault = none) {budget : Option Nat}
    {outcome : Outcome} (houtcome : last.outcomeWithin budget = some outcome) :
    outcome = ending.outcome := by
  cases h with
  | unfinished _ _ hrunning =>
      rw [outcomeWithin, if_pos hrunning, Option.map_eq_some_iff] at houtcome
      obtain ⟨_, -, rfl⟩ := houtcome
      rfl
  | halted htrace _ hdeed =>
      have hrecord := (step_of_retired hdeed).2.1.trans htrace.lastFault_eq
      rw [outcomeWithin_of_stopped (stopped_of_halt hdeed), Machine.outcome,
        hrecord, hfault] at houtcome
      exact (Option.some.inj houtcome).symm
  | faulted _ _ hresult =>
      obtain ⟨-, hrecord, hstopped⟩ := step_of_faulted hresult
      rw [outcomeWithin_of_stopped hstopped, Machine.outcome, hrecord]
        at houtcome
      exact (Option.some.inj houtcome).symm

end Courses

end Machine

end ByteMachine
