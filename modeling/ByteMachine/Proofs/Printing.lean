import ByteMachine.Proofs.FaultMessages
import ByteMachine.Proofs.InstructionTable
import ByteMachine.Proofs.Numeral
import ByteMachine.Proofs.Runs

/-!
# What a machine prints

The values that the print instructions of a run have written, each at the
moment its instruction was completed.  A tape without a limit holds their lines
one behind the other, and then the line about the fault if one ended the run.
-/

namespace ByteMachine

/-- The lines that print some values. -/
def printout (values : List UInt8) : String :=
  String.join (values.map printedLine)

@[simp] theorem printout_nil : printout [] = "" :=
  String.join_nil

@[simp] theorem printout_singleton (value : UInt8) :
    printout [value] = printedLine value := by
  simp [printout]

theorem printout_append (values more : List UInt8) :
    printout (values ++ more) = printout values ++ printout more := by
  simp [printout]

/-- A tape without a limit that holds a text. -/
def Tape.unlimited (text : String) : Tape :=
  ⟨text, none⟩

theorem Tape.write_unlimited (text line : String) :
    Sink.write (unlimited text) line = (unlimited (text ++ line), none) :=
  rfl

namespace Machine

/-- The line about the fault that a machine has recorded, if it has one. -/
def faultText (machine : Machine) : String :=
  machine.lastFault.elim "" faultLine

theorem faultText_of_none {machine : Machine} (h : machine.lastFault = none) :
    machine.faultText = "" := by
  rw [faultText, h]
  rfl

variable {σ : Type} [Sink σ]

/-- The value of the print instruction that a step completes, if it completes
one. -/
def printedBy? (machine : Machine) (sink : σ) : Option UInt8 :=
  match machine.deed? sink with
  | some (.retired (.print register)) => machine.registers.content? register
  | _ => none

/-- The values printed within a number of steps, in order. -/
def printedWithin : Nat → Machine → σ → List UInt8
  | 0, _, _ => []
  | limit + 1, machine, sink =>
      let step := machine.step sink
      (machine.printedBy? sink).toList ++
        printedWithin limit step.machine step.sink

variable {machine : Machine} {sink : σ} {instruction : Instruction Address}
  {effect : Effect} {next : Address}

theorem printedBy?_of_stopped (h : machine.running = false) (sink : σ) :
    machine.printedBy? sink = none := by
  rw [printedBy?, (step_of_stopped h sink).2]

theorem printedWithin_of_stopped
    (h : machine.running = false) (limit : Nat) (sink : σ) :
    machine.printedWithin limit sink = [] := by
  induction limit generalizing sink with
  | zero => rfl
  | succ limit ih =>
      have hmachine := (step_of_stopped h sink).1
      rw [printedWithin, printedBy?_of_stopped h, hmachine, ih]
      rfl

theorem printedBy?_of_error
    {fault : Fault} (h : machine.running = true)
    (hresult : (machine.step sink).result = .error fault) :
    machine.printedBy? sink = none := by
  rw [printedBy?, deed?_of_error h hresult]

theorem deed?_of_ok
    {status : Status} (h : machine.running = true)
    (hfetch : machine.fetch = (.ok instruction, next))
    (hresult : (machine.step sink).result = .ok status) :
    machine.deed? sink = some (.retired instruction) := by
  simp [deed?, h, hresult, hfetch]

theorem printedBy?_of_silent
    {status : Status} (h : machine.running = true)
    (hfetch : machine.fetch = (.ok instruction, next))
    (heffect : instruction.effect machine.registers machine.stack next =
      .ok effect)
    (hprinted : effect.printed = none)
    (hresult : (machine.step sink).result = .ok status) :
    machine.printedBy? sink = none := by
  have hother := (Instruction.row_of_effect heffect).ne_print hprinted
  rw [printedBy?, deed?_of_ok h hfetch hresult]
  cases instruction with
  | print register => exact absurd rfl (hother register)
  | halt | load | arithmetic | jump | jumpIfZero | push | pop => rfl

theorem printedBy?_of_printed
    {status : Status} {register value : UInt8} (h : machine.running = true)
    (hfetch : machine.fetch = (.ok instruction, next))
    (heffect : instruction.effect machine.registers machine.stack next =
      .ok effect)
    (hprinted : effect.printed = some (register, value))
    (hresult : (machine.step sink).result = .ok status) :
    machine.printedBy? sink = some value := by
  obtain ⟨rfl, hcontent⟩ := (Instruction.row_of_effect heffect).eq_print
    hprinted
  rw [printedBy?, deed?_of_ok h hfetch hresult]
  exact hcontent

/-- A value is printed only by a print instruction that was fetched and meets
no fault. -/
theorem print_of_printedBy?
    {value : UInt8} (h : machine.printedBy? sink = some value) :
    machine.running = true ∧ ∃ register next effect,
      machine.fetch = (.ok (.print register), next) ∧
      (Instruction.print register).effect machine.registers machine.stack
        next = .ok effect ∧
      effect.printed = some (register, value) := by
  by_cases hrunning : machine.running = true
  · have hattempt := attempt_step hrunning sink
    generalize hstep : machine.step sink = step at hattempt
    have hresult := congrArg Step.result hstep
    refine ⟨hrunning, ?_⟩
    cases hattempt with
    | unfetched | unfit | unprinted =>
        cases h.symm.trans (printedBy?_of_error hrunning hresult)
    | silent hfetch heffect hprinted =>
        cases h.symm.trans
          (printedBy?_of_silent hrunning hfetch heffect hprinted hresult)
    | printed hfetch heffect hprinted =>
        have hvalue := h.symm.trans
          (printedBy?_of_printed hrunning hfetch heffect hprinted hresult)
        obtain rfl := Option.some.inj hvalue
        obtain ⟨rfl, -⟩ :=
          (Instruction.row_of_effect heffect).eq_print hprinted
        exact ⟨_, _, _, hfetch, heffect, hprinted⟩
  · have hstopped := Bool.eq_false_iff.mpr hrunning
    cases h.symm.trans (printedBy?_of_stopped hstopped sink)

/-! ## Output without a limit -/

/-- A machine that still runs has recorded no new fault. -/
theorem lastFault_of_step_running
    (h : (machine.step sink).machine.running = true) :
    (machine.step sink).machine.lastFault = machine.lastFault := by
  by_cases hrunning : machine.running = true
  · have hattempt := attempt_step hrunning sink
    generalize machine.step sink = step at hattempt h ⊢
    cases hattempt with
    | unfetched | unfit | unprinted => cases h
    | silent | printed => rfl
  · rw [(step_of_stopped (Bool.eq_false_iff.mpr hrunning) sink).1]

theorem sink_step_unlimited
    (h : machine.lastFault = none) (text : String) :
    (machine.step (Tape.unlimited text)).sink =
      Tape.unlimited (text ++
        printout (machine.printedBy? (Tape.unlimited text)).toList ++
        (machine.step (Tape.unlimited text)).machine.faultText) := by
  by_cases hrunning : machine.running = true
  · have hattempt := attempt_step hrunning (Tape.unlimited text)
    generalize hstep : machine.step (Tape.unlimited text) = step
      at hattempt ⊢
    have hresult := congrArg Step.result hstep
    cases hattempt with
    | unfetched | unfit =>
        rw [printedBy?_of_error hrunning hresult]
        simp [fail, stop, faultText, Tape.write_unlimited]
    | silent hfetch heffect hprinted =>
        rw [printedBy?_of_silent hrunning hfetch heffect hprinted hresult]
        simp [complete, retire, faultText, h]
    | printed hfetch heffect hprinted hwrite =>
        rw [printedBy?_of_printed hrunning hfetch heffect hprinted hresult]
        rw [Tape.write_unlimited] at hwrite
        obtain ⟨rfl, -⟩ := Prod.mk.inj hwrite
        simp [complete, retire, faultText, h]
    | unprinted hfetch heffect hprinted hwrite =>
        rw [Tape.write_unlimited] at hwrite
        cases (Prod.mk.inj hwrite).2
  · have hstopped := Bool.eq_false_iff.mpr hrunning
    rw [printedBy?_of_stopped hstopped]
    simp [step, hstopped, faultText, h]

theorem sink_step_unlimited_of_running
    {text : String} (h : machine.lastFault = none)
    (hrunning : (machine.step (Tape.unlimited text)).machine.running = true) :
    (machine.step (Tape.unlimited text)).sink =
      Tape.unlimited (text ++
        printout (machine.printedBy? (Tape.unlimited text)).toList) := by
  have hfault := (lastFault_of_step_running hrunning).trans h
  rw [sink_step_unlimited h, faultText_of_none hfault, String.append_empty]

/-- A tape without a limit takes the printed lines of a run and then the line
about the fault, if a fault has ended it. -/
theorem sink_advance_unlimited
    (h : machine.lastFault = none) (limit : Nat) (text : String)
    (journal : Array Event) :
    (machine.advance limit (Tape.unlimited text) journal).sink =
      Tape.unlimited (text ++
        printout (machine.printedWithin limit (Tape.unlimited text)) ++
        (machine.advance limit (Tape.unlimited text)
          journal).machine.faultText) := by
  induction limit generalizing machine text journal with
  | zero => simp [advance, printedWithin, faultText_of_none h]
  | succ limit ih =>
      by_cases hrunning : machine.running = true
      · rw [advance_of_running hrunning, printedWithin, printout_append]
        by_cases hgoing :
            (machine.step (Tape.unlimited text)).machine.running = true
        · have hfault := (lastFault_of_step_running hgoing).trans h
          rw [sink_step_unlimited_of_running h hgoing, ih hfault]
          simp only [String.append_assoc]
        · have hstopped := Bool.eq_false_iff.mpr hgoing
          rw [advance_of_stopped hstopped, printedWithin_of_stopped hstopped,
            printout_nil, String.append_empty]
          exact sink_step_unlimited h text
      · have hstopped := Bool.eq_false_iff.mpr hrunning
        rw [advance_of_stopped hstopped, printedWithin_of_stopped hstopped]
        simp [faultText_of_none h]

end Machine

/-! ## Characters of the output -/

/-- Every character of a text takes one byte. -/
def IsAscii (text : String) : Prop :=
  ∀ c ∈ text.toList, c.utf8Size = 1

instance (text : String) : Decidable (IsAscii text) :=
  List.decidableBAll (fun c : Char => c.utf8Size = 1) text.toList

theorem isAscii_append
    {text more : String} (h : IsAscii text) (hmore : IsAscii more) :
    IsAscii (text ++ more) := by
  intro c hc
  rw [String.toList_append, List.mem_append] at hc
  exact hc.elim (h c) (hmore c)

theorem isAscii_of_isVisible {text : String} (h : IsVisible text) :
    IsAscii text := by
  intro c hc
  have hlow : c.val.toNat ≤ 0x7F := Nat.le_succ_of_le (h c hc).2
  exact Char.utf8Size_eq_one_iff.mpr hlow

theorem isAscii_printout (values : List UInt8) :
    IsAscii (printout values) := by
  induction values with
  | nil => decide
  | cons value values ih =>
      have hline : IsAscii (printedLine value) :=
        isAscii_append (isAscii_of_isVisible (isVisible_decimal _))
          (by decide)
      rw [← List.singleton_append, printout_append, printout_singleton]
      exact isAscii_append hline ih

theorem isAscii_faultText (machine : Machine) :
    IsAscii machine.faultText := by
  rw [Machine.faultText]
  cases machine.lastFault with
  | none => decide
  | some fault =>
      have hmessage := isAscii_of_isVisible fault.isVisible_message
      exact isAscii_append (isAscii_append (by decide) hmessage) (by decide)

/-- The output of a run that starts with an empty tape, in which each character
is a byte. -/
theorem Machine.output_unlimited
    {machine : Machine} (h : machine.lastFault = none) (limit : Nat)
    (journal : Array Event) :
    let last := machine.advance limit (Tape.unlimited "") journal
    last.sink.accepted =
        printout (machine.printedWithin limit (Tape.unlimited "")) ++
          last.machine.faultText ∧
      IsAscii last.sink.accepted := by
  have hsink := sink_advance_unlimited h limit "" journal
  rw [String.empty_append] at hsink
  have haccepted := congrArg Tape.accepted hsink
  refine ⟨haccepted, ?_⟩
  rw [haccepted]
  exact isAscii_append (isAscii_printout _) (isAscii_faultText _)

end ByteMachine
