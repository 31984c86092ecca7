import ByteMachine.Proofs.Printing

/-!
# Output with a limit

The same program is run with a tape that takes everything and with a tape that
takes the first `n` characters.  As long as the printed lines fit, the two runs
go through the same machines, and the limited tape holds the beginning of what
the other one holds.  The first line that does not fit ends the limited run
with a full tape, so that neither the line about the refusal nor anything that
the other run still prints makes a difference to what was taken.
-/

namespace ByteMachine

/-! ## Limited tapes -/

namespace Tape

/-- A tape that takes `n` characters, after a text was offered to it. -/
def limited (n : Nat) (failure : SinkFailure) (text : String) : Tape :=
  ⟨String.ofList (text.toList.take n), some ⟨n - text.length, failure⟩⟩

theorem limited_empty (n : Nat) (failure : SinkFailure) :
    limited n failure "" = ⟨"", some ⟨n, failure⟩⟩ := by
  simp [limited]

/-- However much of a line is taken, the tape holds the beginning of all that
was offered. -/
theorem write_limited
    (n : Nat) (failure : SinkFailure) (text line : String) :
    Sink.write (limited n failure text) line =
      (limited n failure (text ++ line),
        if line.length ≤ n - text.length then none else some failure) := by
  by_cases h : line.length ≤ n - text.length
  · have hall : line.toList.take (n - text.length) = line.toList :=
      List.take_of_length_le h
    have htaken : String.ofList (text.toList.take n) ++ line =
        String.ofList ((text ++ line).toList.take n) := by
      rw [String.toList_append, List.take_append, String.length_toList, hall,
        String.ofList_append, String.ofList_toList]
    have hleft : n - text.length - line.length =
        n - (text ++ line).length := by
      rw [String.length_append, Nat.sub_add_eq]
    simp only [Sink.write, Tape.write, limited, if_pos h, htaken, hleft]
  · have htaken : String.ofList (text.toList.take n) ++
        String.ofList (line.toList.take (n - text.length)) =
          String.ofList ((text ++ line).toList.take n) := by
      rw [String.toList_append, List.take_append, String.length_toList,
        String.ofList_append]
    have hleft : n - (text ++ line).length = 0 := by
      rw [String.length_append]
      omega
    simp only [Sink.write, Tape.write, limited, if_neg h, htaken, hleft]

theorem write_limited_of_le
    {n : Nat} {text line : String} (h : (text ++ line).length ≤ n)
    (failure : SinkFailure) :
    Sink.write (limited n failure text) line =
      (limited n failure (text ++ line), none) := by
  rw [String.length_append] at h
  rw [write_limited, if_pos (by omega)]

theorem write_limited_of_lt
    {n : Nat} {text line : String} (htext : text.length ≤ n)
    (h : n < (text ++ line).length) (failure : SinkFailure) :
    Sink.write (limited n failure text) line =
      (limited n failure (text ++ line), some failure) := by
  rw [String.length_append] at h
  rw [write_limited, if_neg (by omega)]

/-- What is offered beyond the limit does not matter. -/
theorem accepted_limited_append
    {n : Nat} {text : String} (h : n ≤ text.length) (failure : SinkFailure)
    (more : String) :
    (limited n failure (text ++ more)).accepted =
      (limited n failure text).accepted := by
  rw [limited, String.toList_append, List.take_append_of_le_length h]
  rfl

end Tape

namespace Machine

variable {machine : Machine} {n : Nat} {text : String}

/-! ## Lines that fit -/

theorem step_limited_of_fits
    (hfits : (text ++
      printout (machine.printedBy? (Tape.unlimited text)).toList).length ≤ n)
    (failure : SinkFailure) :
    (machine.step (Tape.limited n failure text)).machine =
        (machine.step (Tape.unlimited text)).machine ∧
      (machine.step (Tape.limited n failure text)).sink =
        Tape.limited n failure
          (machine.step (Tape.unlimited text)).sink.accepted := by
  by_cases hrunning : machine.running = true
  · have hattempt := attempt_step hrunning (Tape.unlimited text)
    generalize hstep : machine.step (Tape.unlimited text) = step
      at hattempt ⊢
    have hresult := congrArg Step.result hstep
    cases hattempt with
    | unfetched hfetch =>
        rw [step_of_unfetched hrunning hfetch]
        exact ⟨rfl, congrArg Prod.fst (Tape.write_limited ..)⟩
    | unfit hfetch heffect =>
        rw [step_of_unfit hrunning hfetch heffect]
        exact ⟨rfl, congrArg Prod.fst (Tape.write_limited ..)⟩
    | silent hfetch heffect hprinted =>
        rw [step_of_silent hrunning hfetch heffect hprinted]
        exact ⟨rfl, rfl⟩
    | printed hfetch heffect hprinted hwrite =>
        rw [printedBy?_of_printed hrunning hfetch heffect hprinted hresult,
          Option.toList_some, printout_singleton] at hfits
        rw [Tape.write_unlimited] at hwrite
        obtain ⟨rfl, -⟩ := Prod.mk.inj hwrite
        rw [step_of_printed hrunning hfetch heffect hprinted
          (Tape.write_limited_of_le hfits failure)]
        exact ⟨rfl, rfl⟩
    | unprinted hfetch heffect hprinted hwrite =>
        rw [Tape.write_unlimited] at hwrite
        cases (Prod.mk.inj hwrite).2
  · simp [step, hrunning, Tape.unlimited]

/-- As long as the printed lines fit, a limit changes nothing but the text that
is taken. -/
theorem advance_limited_of_fits
    {limit : Nat} (h : machine.lastFault = none)
    (hfits : (text ++ printout
      (machine.printedWithin limit (Tape.unlimited text))).length ≤ n)
    (failure : SinkFailure) (journal other : Array Event) :
    let cut := machine.advance limit (Tape.limited n failure text) journal
    let whole := machine.advance limit (Tape.unlimited text) other
    cut.machine = whole.machine ∧
      cut.sink = Tape.limited n failure whole.sink.accepted := by
  induction limit generalizing machine text journal other with
  | zero => exact ⟨rfl, rfl⟩
  | succ limit ih =>
      by_cases hrunning : machine.running = true
      · rw [printedWithin, printout_append, ← String.append_assoc] at hfits
        have hfirst : (text ++ printout
            (machine.printedBy? (Tape.unlimited text)).toList).length ≤ n := by
          rw [String.length_append] at hfits
          omega
        obtain ⟨hmachine, hsink⟩ := step_limited_of_fits hfirst failure
        rw [advance_of_running hrunning, advance_of_running hrunning, hmachine,
          hsink]
        by_cases hgoing :
            (machine.step (Tape.unlimited text)).machine.running = true
        · rw [sink_step_unlimited_of_running h hgoing] at hfits ⊢
          exact ih ((lastFault_of_step_running hgoing).trans h) hfits _ _
        · have hstopped := Bool.eq_false_iff.mpr hgoing
          rw [advance_of_stopped hstopped, advance_of_stopped hstopped]
          exact ⟨rfl, rfl⟩
      · have hstopped := Bool.eq_false_iff.mpr hrunning
        rw [advance_of_stopped hstopped, advance_of_stopped hstopped]
        exact ⟨rfl, rfl⟩

/-! ## The first line that does not fit -/

/-- After so many steps a machine comes to the first print instruction whose
line does not end within the first `n` characters of the output. -/
structure ExceedsAt (machine : Machine) (text : String) (n steps : Nat)
    (value : UInt8) : Prop where
  prints :
    let before := machine.advance steps (Tape.unlimited text) #[]
    before.machine.printedBy? before.sink = some value
  fits : (text ++ printout
    (machine.printedWithin steps (Tape.unlimited text))).length ≤ n
  exceeds : n < (text ++ printout
    (machine.printedWithin steps (Tape.unlimited text)) ++
      printedLine value).length

theorem ExceedsAt.of_step
    {steps : Nat} {value : UInt8} (h : machine.lastFault = none)
    (hrunning : machine.running = true)
    (hgoing : (machine.step (Tape.unlimited text)).machine.running = true)
    (hlater : (machine.step (Tape.unlimited text)).machine.ExceedsAt
      (text ++ printout (machine.printedBy? (Tape.unlimited text)).toList)
      n steps value) :
    machine.ExceedsAt text n (steps + 1) value := by
  have hsink := sink_step_unlimited_of_running h hgoing
  obtain ⟨hprints, hfits, hexceeds⟩ := hlater
  refine ⟨?_, ?_, ?_⟩
  · obtain ⟨hmachine, hafter⟩ :=
      advance_after_step hrunning steps (Tape.unlimited text) #[] #[]
    rw [hsink] at hmachine hafter
    simp only [hmachine, hafter]
    exact hprints
  · rw [printedWithin, printout_append, hsink, ← String.append_assoc]
    exact hfits
  · rw [printedWithin, printout_append, hsink, ← String.append_assoc]
    exact hexceeds

/-- A refused line stops the machine behind its print instruction. -/
theorem step_limited_of_exceeds
    {value : UInt8}
    (hprints : machine.printedBy? (Tape.unlimited text) = some value)
    (hfits : text.length ≤ n)
    (hexceeds : n < (text ++ printedLine value).length)
    (failure : SinkFailure) :
    let cut := machine.step (Tape.limited n failure text)
    (∃ next, next.toNat = machine.pc.toNat + 2 ∧
      cut.machine = machine.stop next (.output failure)) ∧
    cut.sink.accepted =
      (Tape.limited n failure (text ++ printedLine value)).accepted := by
  obtain ⟨hrunning, register, next, effect, hfetch, heffect, hprinted⟩ :=
    print_of_printedBy? hprints
  have hnext := (encode_prefix_of_fetch hfetch).2
  rw [step_of_unprinted hrunning hfetch heffect hprinted
    (Tape.write_limited_of_lt hfits hexceeds failure)]
  refine ⟨⟨next, hnext, rfl⟩, ?_⟩
  rw [fail, Tape.write_limited]
  exact Tape.accepted_limited_append (Nat.le_of_lt hexceeds) failure _

/-- The run with a limit was ended by the first line that does not fit, within
so many steps, and has taken as much as the limit allows of what the run
without a limit writes. -/
def IsCut (machine : Machine) (text : String) (n limit : Nat)
    (failure : SinkFailure) (cut whole : Advance Tape) : Prop :=
  (∃ steps value next, steps < limit ∧ machine.ExceedsAt text n steps value ∧
    let before := (machine.advance steps (Tape.unlimited text) #[]).machine
    next.toNat = before.pc.toNat + 2 ∧
      cut.machine = before.stop next (.output failure)) ∧
  cut.sink.accepted = (Tape.limited n failure whole.sink.accepted).accepted

theorem isCut_of_prints
    {value : UInt8} (h : machine.lastFault = none)
    (hprints : machine.printedBy? (Tape.unlimited text) = some value)
    (hfits : text.length ≤ n)
    (hexceeds : n < (text ++ printedLine value).length)
    (limit : Nat) (failure : SinkFailure) (journal other : Array Event) :
    machine.IsCut text n (limit + 1) failure
      (machine.advance (limit + 1) (Tape.limited n failure text) journal)
      (machine.advance (limit + 1) (Tape.unlimited text) other) := by
  obtain ⟨⟨next, hnext, hmachine⟩, hsink⟩ :=
    step_limited_of_exceeds hprints hfits hexceeds failure
  have hat : machine.ExceedsAt text n 0 value :=
    ⟨hprints, by simpa [printedWithin] using hfits,
      by simpa [printedWithin] using hexceeds⟩
  have hstopped : (machine.step
      (Tape.limited n failure text)).machine.running = false := by
    rw [hmachine]
    rfl
  rw [advance_of_running (print_of_printedBy? hprints).1,
    advance_of_stopped hstopped]
  refine ⟨⟨0, value, next, Nat.succ_pos limit, hat, hnext, hmachine⟩, ?_⟩
  -- The other run goes on, but behind the line that was cut.
  rw [sink_advance_unlimited h, printedWithin, hprints, Option.toList_some,
    printout_append, printout_singleton, ← String.append_assoc,
    String.append_assoc]
  exact hsink.trans (Tape.accepted_limited_append (Nat.le_of_lt hexceeds)
    failure _).symm

theorem isCut_of_step
    {limit : Nat} (h : machine.lastFault = none)
    (hrunning : machine.running = true)
    (hgoing : (machine.step (Tape.unlimited text)).machine.running = true)
    {failure : SinkFailure} {cut whole : Advance Tape}
    (hlater : (machine.step (Tape.unlimited text)).machine.IsCut
      (text ++ printout (machine.printedBy? (Tape.unlimited text)).toList)
      n limit failure cut whole) :
    machine.IsCut text n (limit + 1) failure cut whole := by
  obtain ⟨⟨steps, value, next, hlt, hat, hnext, hmachine⟩, haccepted⟩ :=
    hlater
  have hbefore := (advance_after_step hrunning steps (Tape.unlimited text)
    #[] #[]).1
  rw [sink_step_unlimited_of_running h hgoing] at hbefore
  refine ⟨⟨steps + 1, value, next, Nat.succ_lt_succ hlt,
    hat.of_step h hrunning hgoing, ?_, ?_⟩, haccepted⟩
  · rw [hbefore]
    exact hnext
  · rw [hbefore]
    exact hmachine

/-- Where the printed lines of a run do not fit, the limit cuts it. -/
theorem isCut_advance
    {limit : Nat} (h : machine.lastFault = none) (hfits : text.length ≤ n)
    (hexceeds : n < (text ++ printout
      (machine.printedWithin limit (Tape.unlimited text))).length)
    (failure : SinkFailure) (journal other : Array Event) :
    machine.IsCut text n limit failure
      (machine.advance limit (Tape.limited n failure text) journal)
      (machine.advance limit (Tape.unlimited text) other) := by
  induction limit generalizing machine text journal other with
  | zero =>
      rw [printedWithin, printout_nil, String.append_empty] at hexceeds
      omega
  | succ limit ih =>
      rw [printedWithin, printout_append, ← String.append_assoc] at hexceeds
      by_cases hfirst : (text ++ printout
          (machine.printedBy? (Tape.unlimited text)).toList).length ≤ n
      · -- The first step fits, so both runs go on from the same machine.
        have hgoing :
            (machine.step (Tape.unlimited text)).machine.running = true := by
          by_contra hstopped
          rw [printedWithin_of_stopped (Bool.eq_false_iff.mpr hstopped),
            printout_nil, String.append_empty] at hexceeds
          omega
        have hrunning : machine.running = true := by
          by_contra hstopped
          rw [(step_of_stopped (Bool.eq_false_iff.mpr hstopped) _).1]
            at hgoing
          exact hstopped hgoing
        have hfault := (lastFault_of_step_running hgoing).trans h
        obtain ⟨hmachine, hsink⟩ := step_limited_of_fits hfirst failure
        have hnext := sink_step_unlimited_of_running h hgoing
        rw [hnext] at hexceeds hsink
        refine isCut_of_step h hrunning hgoing ?_
        rw [advance_of_running hrunning, advance_of_running hrunning, hmachine,
          hsink, hnext]
        exact ih hfault hfirst hexceeds _ _
      · -- The first step prints the line that does not fit.
        cases hprints : machine.printedBy? (Tape.unlimited text) with
        | none => simp [hprints] at hfirst; omega
        | some value =>
            rw [hprints, Option.toList_some, printout_singleton] at hfirst
            exact isCut_of_prints h hprints hfits (Nat.not_le.mp hfirst) limit
              failure journal other

end Machine

/-! ## Runs of programs -/

/-- A report on a run that the limit has cut.  It is about the machine that the
run without a limit has after it has completed so many instructions, the latest
first, and before it prints the first line that does not fit. -/
structure Report.IsOfCut (report : Report) (start : Machine) (n limit : Nat)
    (failure : SinkFailure) (retired : List (Instruction Address))
    (value : UInt8) (before : Machine) : Prop where
  reached : before =
    (start.advance retired.length (Tape.unlimited "") #[]).machine
  within : retired.length < limit
  deeds : start.deeds retired.length (Tape.unlimited "") =
    retired.map .retired
  exceeds : start.ExceedsAt "" n retired.length value
  outcome : report.outcome = .faulted (Fault.output failure).message
  steps : report.steps = UInt64.ofNat retired.length
  registers : report.registers = before.registers
  sp : report.sp = before.stack.pointer
  pc : report.pc.toNat = before.pc.toNat + 2

theorem Machine.IsCut.exists_report
    {start : Machine} {n limit : Nat} {failure : SinkFailure}
    {cut whole : Advance Tape} (hsteps : start.steps = 0)
    (h : start.IsCut "" n limit failure cut whole) (budget : Option Nat) :
    cut.machine.outcomeWithin budget = some cut.machine.outcome ∧
    ∃ retired value before,
      (Session.report ⟨cut.machine, cut.sink, budget⟩
        cut.machine.outcome).IsOfCut start n limit failure retired value
          before := by
  obtain ⟨⟨steps, value, next, hlt, hat, hnext, hmachine⟩, -⟩ := h
  have hrunning := (print_of_printedBy? hat.prints).1
  obtain ⟨retired, rfl, hdeeds, hcount⟩ := retired_of_advance_running hrunning
  rw [hsteps, UInt64.zero_add] at hcount
  rw [hmachine]
  refine ⟨outcomeWithin_of_stopped rfl budget, retired, value,
    (start.advance retired.length (Tape.unlimited "") #[]).machine, ?_⟩
  exact {
    reached := rfl
    within := hlt
    deeds := hdeeds
    exceeds := hat
    outcome := rfl
    steps := hcount
    registers := rfl
    sp := rfl
    pc := hnext }

/-- The output of a run with a limit of `n` characters is the beginning of the
output of the run without one, and each character is a byte.  Where all printed
lines fit, the runs have the same report, whatever becomes of the line about
the fault; otherwise the limited run ends at the first line that does not
fit. -/
theorem limited_output_truncates
    {program : List UInt8} (hsize : program.length ≤ 256)
    (budget : Option Nat) (fuel n : Nat) (failure : SinkFailure) :
    let start := Machine.started program
    let limit := budget.getD fuel
    let lines := printout (start.printedWithin limit (Tape.unlimited ""))
    (budget.isSome → ∃ whole,
      runProgram fuel program (Tape.unlimited "") budget = .ok (some whole)) ∧
    ∀ whole,
      runProgram fuel program (Tape.unlimited "") budget = .ok (some whole) →
      whole.session.sink.accepted =
        lines ++ whole.session.machine.faultText ∧
      IsAscii whole.session.sink.accepted ∧
      ∃ cut, runProgram fuel program (⟨"", some ⟨n, failure⟩⟩ : Tape) budget =
          .ok (some cut) ∧
        cut.session.sink.accepted =
          String.ofList (whole.session.sink.accepted.toList.take n) ∧
        (lines.length ≤ n → cut.answer = whole.answer) ∧
        (n < lines.length → ∃ retired value before,
          cut.answer.IsOfCut start n limit failure retired value before) := by
  intro start limit lines
  have hfault : start.lastFault = none := rfl
  obtain ⟨journal, hwhole⟩ :=
    runProgram_eq hsize fuel (Tape.unlimited "") budget
  obtain ⟨other, hcut⟩ :=
    runProgram_eq hsize fuel (Tape.limited n failure "") budget
  rw [← Tape.limited_empty]
  constructor
  · intro hbudget
    obtain ⟨outcome, houtcome⟩ :=
      Option.isSome_iff_exists.mp (Machine.isSome_outcomeWithin _ hbudget)
    rw [hwhole, houtcome]
    exact ⟨_, rfl⟩
  intro whole hrun
  rw [hwhole] at hrun
  obtain ⟨outcome, houtcome, rfl⟩ :=
    Option.map_eq_some_iff.mp (Except.ok.inj hrun)
  obtain ⟨haccepted, hascii⟩ := Machine.output_unlimited hfault limit #[]
  refine ⟨haccepted, hascii, ?_⟩
  have hlines : ("" ++ lines).length = lines.length := by
    rw [String.empty_append]
  by_cases hfits : lines.length ≤ n
  · obtain ⟨hmachine, htaken⟩ := Machine.advance_limited_of_fits hfault
      (Nat.le_trans (Nat.le_of_eq hlines) hfits) failure #[] #[]
    rw [hcut, hmachine, houtcome]
    refine ⟨_, rfl, congrArg Tape.accepted htaken, fun _ => rfl, ?_⟩
    intro hexceeds
    omega
  · have hexceeds :=
      Nat.lt_of_lt_of_eq (Nat.not_le.mp hfits) hlines.symm
    have hisCut := Machine.isCut_advance hfault (Nat.zero_le n) hexceeds
      failure #[] #[]
    obtain ⟨hended, hreport⟩ := hisCut.exists_report rfl budget
    rw [hcut, hended]
    exact ⟨_, rfl, hisCut.2, fun h => absurd h hfits, fun _ => hreport⟩

/-- Two lines of four characters, and a limit within the second of them. -/
theorem limited_output_truncates_withinLine :
    ∃ cut, runProgram 0 [1, 0, 200, 10, 0, 10, 0]
        (⟨"", some ⟨6, .brokenPipe⟩⟩ : Tape) (some 9) = .ok (some cut) ∧
      cut.session.sink.accepted = "200\n20" ∧
      ∃ retired value before, cut.answer.IsOfCut
        (Machine.started [1, 0, 200, 10, 0, 10, 0]) 6 9 .brokenPipe retired
          value before := by
  have hlines : (Machine.started [1, 0, 200, 10, 0, 10, 0]).printedWithin 9
      (Tape.unlimited "") = [200, 200] := by
    decide +kernel
  obtain ⟨hends, htruncates⟩ := @limited_output_truncates
    [1, 0, 200, 10, 0, 10, 0] (by decide) (some 9) 0 6 .brokenPipe
  obtain ⟨whole, hwhole⟩ := hends rfl
  obtain ⟨hoffered, -, cut, hcut, haccepted, -, hreport⟩ :=
    htruncates whole hwhole
  rw [Option.getD_some, hlines] at hreport hoffered
  rw [hoffered, String.toList_append,
    List.take_append_of_le_length (by decide)] at haccepted
  exact ⟨cut, hcut, haccepted, hreport (by decide)⟩

end ByteMachine
