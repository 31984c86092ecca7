import ByteMachine.Proofs.Printing

/-!
# Sinks that accept everything

A machine learns nothing from a sink but whether a printed line was refused.
Two sinks that refuse nothing are therefore the same to it: it takes the same
steps, makes the same remarks and offers the same lines to both.  The journal
keeps the lines, so that what a run has written can be told without its sink.
-/

namespace ByteMachine

/-! ## Lines and sinks -/

/-- The line that an event offered to the sink, if it offered one. -/
def Event.line? : Event → Option String
  | remark _ => none
  | offered line => some line

/-- The lines offered to the sink while a journal was kept, in their order. -/
def offeredLines (events : List Event) : List String :=
  events.filterMap Event.line?

theorem offeredLines_append (events more : List Event) :
    offeredLines (events ++ more) = offeredLines events ++ offeredLines more :=
  List.filterMap_append

theorem offeredLines_appendList (journal : Array Event) (events : List Event) :
    offeredLines (journal.appendList events).toList =
      offeredLines journal.toList ++ offeredLines events := by
  rw [← offeredLines_append]
  exact congrArg offeredLines Array.toList_appendList

theorem offeredLines_append_remark (events : List Event) (said : Remark) :
    offeredLines (events ++ [.remark said]) = offeredLines events := by
  simp [offeredLines, Event.line?]

theorem offeredLines_cons_remark (said : Remark) (events : List Event) :
    offeredLines (.remark said :: events) = offeredLines events :=
  List.filterMap_cons_none rfl

/-- The lines that were offered to the sink during an operation. -/
def Turn.lines {σ α : Type} (turn : Turn σ α) : List String :=
  offeredLines turn.journal.toList

namespace Sink

variable {σ : Type} [Sink σ]

/-- A sink after some lines were written to it. -/
def writeAll (sink : σ) (lines : List String) : σ :=
  lines.foldl (fun sink line => (write sink line).1) sink

@[simp] theorem writeAll_nil (sink : σ) : writeAll sink [] = sink := rfl

@[simp] theorem writeAll_append (sink : σ) (lines more : List String) :
    writeAll sink (lines ++ more) = writeAll (writeAll sink lines) more :=
  List.foldl_append

/-- Whatever is written to a sink, it never refuses a line. -/
def Accepts (sink : σ) : Prop :=
  ∀ lines line, (write (writeAll sink lines) line).2 = none

theorem Accepts.write_eq {sink : σ} (h : Accepts sink) (line : String) :
    write sink line = (writeAll sink [line], none) :=
  Prod.ext rfl (h [] line)

theorem Accepts.writeAll
    {sink : σ} (h : Accepts sink) (lines : List String) :
    Accepts (writeAll sink lines) := by
  intro more line
  rw [← writeAll_append]
  exact h (lines ++ more) line

end Sink

namespace Tape

/-- A tape without a limit holds all that was written. -/
theorem writeAll_unlimited (text : String) (lines : List String) :
    Sink.writeAll (unlimited text) lines =
      unlimited (text ++ String.join lines) := by
  induction lines generalizing text with
  | nil => simp
  | cons line lines ih =>
      change Sink.writeAll (unlimited (text ++ line)) lines = _
      rw [ih, String.join_cons, String.append_assoc]

theorem accepts_unlimited (text : String) : Sink.Accepts (unlimited text) := by
  intro lines line
  rw [writeAll_unlimited]
  rfl

end Tape

/-! ## The same machine with two sinks -/

section Alike

variable {σ τ : Type} [Sink σ] [Sink τ] {sink : σ} {other : τ}
  (hsink : Sink.Accepts sink) (hother : Sink.Accepts other)
include hsink hother

namespace Machine

/-- A step does the same with both sinks and writes the lines that it offers. -/
theorem step_of_accepts (machine : Machine) :
    let tried := machine.step other
    machine.step sink =
      ⟨tried.machine, Sink.writeAll sink (offeredLines tried.events),
        tried.result, tried.events⟩ := by
  intro tried
  by_cases h : machine.running = true
  · obtain ⟨step, hattempt⟩ : ∃ step, machine.Attempt other step :=
      ⟨_, attempt_step h other⟩
    simp only [tried]
    cases hattempt with
    | unfetched hfetch =>
        rw [step_of_unfetched h hfetch sink, step_of_unfetched h hfetch other]
        rfl
    | unfit hfetch heffect =>
        rw [step_of_unfit h hfetch heffect sink,
          step_of_unfit h hfetch heffect other]
        rfl
    | silent hfetch heffect hprinted =>
        rw [step_of_silent h hfetch heffect hprinted sink,
          step_of_silent h hfetch heffect hprinted other]
        simp only [complete]
        split <;> rfl
    | printed hfetch heffect hprinted =>
        rw [step_of_printed h hfetch heffect hprinted (hsink.write_eq _),
          step_of_printed h hfetch heffect hprinted (hother.write_eq _)]
        simp only [complete]
        split <;> rfl
    | unprinted _ _ _ hwrite =>
        rw [hother.write_eq] at hwrite
        cases (Prod.mk.inj hwrite).2
  · simp [tried, step, h, offeredLines]

/-- Steps do the same with both sinks.  The lines of the journal so far are
taken as written already. -/
theorem advance_writeAll
    (limit : Nat) (machine : Machine) (journal : Array Event) :
    let before := offeredLines journal.toList
    let last := machine.advance limit (Sink.writeAll other before) journal
    machine.advance limit (Sink.writeAll sink before) journal =
      ⟨last.machine,
        Sink.writeAll sink (offeredLines last.journal.toList),
        last.journal⟩ := by
  induction limit generalizing machine journal with
  | zero => rfl
  | succ limit ih =>
      by_cases h : machine.running = true
      · have hstep := step_of_accepts
          (hsink.writeAll (offeredLines journal.toList))
          (hother.writeAll (offeredLines journal.toList)) machine
        have hself := step_of_accepts
          (hother.writeAll (offeredLines journal.toList))
          (hother.writeAll (offeredLines journal.toList)) machine
        have hafter := congrArg Step.sink hself
        simp only [advance_of_running h, hstep, hafter]
        generalize machine.step
          (Sink.writeAll other (offeredLines journal.toList)) = step
        have hrest := ih step.machine (journal.appendList step.events)
        simp only [offeredLines_appendList, Sink.writeAll_append] at hrest
        exact hrest
      · have hstopped := Bool.eq_false_iff.mpr h
        simp only [advance_of_stopped hstopped]

theorem advance_of_accepts (limit : Nat) (machine : Machine) :
    let last := machine.advance limit other #[]
    machine.advance limit sink #[] =
      ⟨last.machine,
        Sink.writeAll sink (offeredLines last.journal.toList),
        last.journal⟩ :=
  advance_writeAll hsink hother limit machine #[]

end Machine

/-- A run does the same with both sinks: it ends with one if it ends with the
other, with the same report, and it has written the same lines. -/
theorem Session.run_of_accepts
    (fuel : Nat) (machine : Machine) (budget : Option Nat) :
    Session.run fuel ⟨machine, sink, budget⟩ =
      (Session.run fuel ⟨machine, other, budget⟩).map fun turn =>
        ⟨⟨turn.session.machine, Sink.writeAll sink turn.lines, budget⟩,
          turn.answer, turn.journal⟩ := by
  cases budget with
  | none =>
      simp only [run, runToEnd,
        Machine.advance_of_accepts hsink hother fuel machine]
      generalize machine.advance fuel other #[] = last
      by_cases h : last.machine.running = true
      · simp [h]
      · simp [h, finish, after, report, Turn.lines]
  | some limit =>
      simp only [run, runWithin,
        Machine.advance_of_accepts hsink hother limit machine]
      generalize machine.advance limit other #[] = last
      by_cases h : last.machine.running = true
      · simp [h, exhaust, after, report, Turn.lines, offeredLines_append_remark]
      · simp [h, finish, after, report, Turn.lines]

end Alike

end ByteMachine
