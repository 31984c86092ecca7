import ByteMachine.Proofs.Printing
import ByteMachine.Proofs.Trace

/-!
# The output of a run is its trace

A tape that takes everything holds, after every part of a trace, the lines of
the print instructions among its moments, and nothing else.  At the end of a
run the line about a fault stands behind them exactly when the report names
one.  The report takes the fault from the record of the machine and the tape
was written by the step, so that this is a statement about both.
-/

namespace ByteMachine

/-- The value that an instruction printed, if it was a print instruction: what
its register held at that moment. -/
def Moment.value? (moment : Moment) : Option UInt8 :=
  match moment.instruction with
  | .print register => moment.machine.registers.content? register
  | _ => none

/-- The values printed in the course of some moments. -/
def Moment.values (moments : List Moment) : List UInt8 :=
  moments.filterMap value?

theorem Moment.values_cons (moment : Moment) (moments : List Moment) :
    values (moment :: moments) = moment.value?.toList ++ values moments := by
  rw [values, List.filterMap_cons]
  cases moment.value? <;> rfl

/-- What an outcome adds to the output: a line for a fault, and nothing
else. -/
def Outcome.line : Outcome → String
  | faulted message => "fault: " ++ message ++ "\n"
  | halted => ""
  | stepLimit => ""

namespace Machine

variable {machine last : Machine} {moments : List Moment}

theorem printedBy?_of_retired
    {σ : Type} [Sink σ] {sink : σ} {instruction : Instruction Address}
    (h : machine.deed? sink = some (.retired instruction)) :
    machine.printedBy? sink = Moment.value? ⟨machine, instruction⟩ := by
  rw [printedBy?, h]
  cases instruction <;> rfl

/-- A print instruction that was completed has printed a value. -/
theorem exists_content_of_retired
    {σ : Type} [Sink σ] {sink : σ} {register : UInt8}
    (h : machine.deed? sink = some (.retired (.print register))) :
    ∃ value, machine.registers.content? register = some value := by
  obtain ⟨deed, hdeed, hto⟩ := step_of_running (running_of_deed? h) sink
  obtain rfl := Option.some.inj (h.symm.trans hdeed)
  generalize (machine.step sink).machine = next at hto
  cases hto with
  | retired _ heffect =>
      have hregisters := (Instruction.completes_of_effect heffect).registers
      have hlt := hregisters register (by simp [Instruction.registers])
      obtain ⟨value, hvalue, -⟩ := machine.registers.exists_content hlt
      exact ⟨value, hvalue⟩

theorem Trace.exists_value
    {σ : Type} [Sink σ] {sink after : σ}
    (h : machine.Trace sink moments last after) {moment : Moment}
    (hmem : moment ∈ moments) {register : UInt8}
    (hprint : moment.instruction = .print register) :
    ∃ value, moment.value? = some value := by
  induction h with
  | nil => cases hmem
  | cons hdeed _ ih =>
      rcases List.mem_cons.mp hmem with rfl | hlater
      · obtain rfl := hprint
        exact exists_content_of_retired hdeed
      · exact ih hlater

/-- In the course of a trace the tape takes the lines of the values printed, and
nothing else. -/
theorem Trace.sink_unlimited
    {text : String} {after : Tape}
    (h : machine.Trace (Tape.unlimited text) moments last after)
    (hfault : machine.lastFault = none) :
    after = Tape.unlimited (text ++ printout (Moment.values moments)) := by
  induction moments generalizing machine text with
  | nil =>
      cases h with
      | nil => simp [Moment.values]
  | cons moment moments ih =>
      cases h with
      | cons hdeed hrest =>
          obtain ⟨-, hrecord, -⟩ := step_of_retired hdeed
          have hnext := hrecord.trans hfault
          rw [sink_step_unlimited hfault, faultText_of_none hnext,
            String.append_empty, printedBy?_of_retired hdeed] at hrest
          rw [ih hrest hnext, Moment.values_cons, printout_append,
            String.append_assoc]

/-- The output of a number of steps: the lines of the values printed, and the
line about the fault if one ended them. -/
theorem Course.accepted_eq
    {limit : Nat} {ending : Ending} {after : Tape}
    (h : machine.Course (Tape.unlimited "") limit moments ending last after)
    (hfault : machine.lastFault = none) :
    after.accepted =
      printout (Moment.values moments) ++ ending.outcome.line := by
  cases h with
  | unfinished htrace =>
      rw [htrace.sink_unlimited hfault, String.empty_append]
      exact String.append_empty.symm
  | halted htrace _ hdeed =>
      have hwhole := htrace.append (.cons hdeed (.nil _ _))
      rw [hwhole.sink_unlimited hfault, String.empty_append]
      exact String.append_empty.symm
  | faulted htrace _ hresult =>
      have hrunning := running_of_step_error hresult
      have hrecord := (step_of_faulted hresult).2.1
      have hbefore := htrace.lastFault_eq.trans hfault
      rw [htrace.sink_unlimited hfault,
        String.empty_append] at hresult hrecord ⊢
      rw [sink_step_unlimited hbefore, printedBy?_of_error hrunning hresult,
        faultText, hrecord, Option.toList_none, printout_nil,
        String.append_empty]
      rfl

end Machine

/-- The output of a run is its trace.  For every print instruction that was
completed there is a line with the value that its register held then, in the
order of execution; behind these lines there is one about the fault exactly
when the outcome is a fault, with the same wording.  The lines come when their
instructions are completed, so that no other instruction writes anything. -/
theorem output_is_trace
    {program : List UInt8} (hsize : program.length ≤ 256)
    {budget : Option Nat} {fuel : Nat} {turn : Turn Tape Report}
    (hrun : runProgram fuel program (Tape.unlimited "") budget =
      .ok (some turn)) :
    ∃ moments ending,
      (Machine.started program).Course (Tape.unlimited "")
        (budget.getD fuel) moments ending turn.session.machine
        turn.session.sink ∧
      turn.answer.outcome = ending.outcome ∧
      turn.answer.steps = UInt64.ofNat moments.length ∧
      (∀ moment ∈ moments, ∀ register,
        moment.instruction = .print register →
          ∃ value, moment.value? = some value) ∧
      turn.session.sink.accepted =
        printout (Moment.values moments) ++ turn.answer.outcome.line ∧
      ∀ front back, moments = front ++ back →
        ∃ machine, (Machine.started program).Trace (Tape.unlimited "") front
          machine (Tape.unlimited (printout (Moment.values front))) := by
  have hfault : (Machine.started program).lastFault = none := rfl
  have hrunning : (Machine.started program).running = true := rfl
  obtain ⟨journal, hruns⟩ :=
    runProgram_eq hsize fuel (Tape.unlimited "") budget
  obtain ⟨moments, ending, hcourse⟩ := Machine.exists_course hrunning
    (budget.getD fuel) (Tape.unlimited "") #[]
  rw [hruns] at hrun
  obtain ⟨outcome, houtcome, rfl⟩ :=
    Option.map_eq_some_iff.mp (Except.ok.inj hrun)
  obtain rfl := hcourse.outcome_eq hfault houtcome
  obtain ⟨middle, between, htrace⟩ := hcourse.exists_trace
  refine ⟨moments, ending, hcourse, rfl, ?_, ?_, ?_, ?_⟩
  · exact hcourse.steps_eq.trans (UInt64.zero_add _)
  · intro moment hmem register hprint
    exact htrace.exists_value hmem hprint
  · exact hcourse.accepted_eq hfault
  · rintro front back rfl
    obtain ⟨machine, sink, hfront, -⟩ := htrace.exists_of_append
    have hsink := hfront.sink_unlimited hfault
    rw [String.empty_append] at hsink
    exact ⟨machine, hsink ▸ hfront⟩

/-- A program that prints, doubles what it printed, prints again and then names
a register that does not exist. -/
theorem output_is_trace_fault :
    ∃ turn, runProgram 0 [1, 0, 7, 10, 0, 2, 0, 0, 0, 10, 0, 10, 9]
        (Tape.unlimited "") (some 9) = .ok (some turn) ∧
      turn.session.sink.accepted = "7\n14\nfault: invalid register 9\n" ∧
      ∃ moments : List Moment, turn.answer.steps = UInt64.ofNat moments.length ∧
        turn.session.sink.accepted =
          printout (Moment.values moments) ++
            Outcome.line (.faulted "invalid register 9") := by
  have hanswer : (runProgram 0 [1, 0, 7, 10, 0, 2, 0, 0, 0, 10, 0, 10, 9]
      (Tape.unlimited "") (some 9)).map (Option.map fun turn =>
        (turn.session.sink.accepted, turn.answer.outcome)) =
      .ok (some ("7\n14\nfault: invalid register 9\n",
        .faulted "invalid register 9")) := by
    decide +kernel
  obtain ⟨answer, hrun, hshown⟩ := Result.map_eq_ok_iff.mp hanswer
  obtain ⟨turn, rfl, hpair⟩ := Option.map_eq_some_iff.mp hshown
  obtain ⟨haccepted, houtcome⟩ := Prod.mk.inj hpair
  obtain ⟨moments, ending, -, -, hsteps, -, houtput, -⟩ :=
    output_is_trace (by decide) hrun
  rw [houtcome] at houtput
  exact ⟨turn, hrun, haccepted, moments, hsteps, houtput⟩

end ByteMachine
