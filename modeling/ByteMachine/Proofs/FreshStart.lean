import ByteMachine.Proofs.AcceptingSink
import Mathlib.Data.List.GetD

/-!
# Fresh starts

A reset puts every part of the machine back to where it was in the beginning,
so that nothing of what a session has been through can be seen in a later run:
not the registers and the stack, not the memory behind a short program, not the
step counter, and not the text that the sink already holds.  Memory that was
never loaded is zero, which is why zeros behind a program change nothing.
-/

namespace ByteMachine

namespace Session

variable {σ : Type}

/-- The sessions that come of loads, accepted or not, steps, runs and
resets. -/
inductive Reaches [Sink σ] (first : Session σ) : Session σ → Prop
  | refl : Reaches first first
  | load {session : Session σ} (h : Reaches first session)
      (program : List UInt8) : Reaches first (session.load program).session
  | step {session : Session σ} (h : Reaches first session) :
      Reaches first session.step.session
  | run {session : Session σ} (h : Reaches first session) {fuel : Nat}
      {turn : Turn σ Report} (hrun : session.run fuel = some turn) :
      Reaches first turn.session
  | reset {session : Session σ} (h : Reaches first session) :
      Reaches first session.reset.session

/-- A load is about the machine only. -/
theorem session_load (session : Session σ) (program : List UInt8) :
    ∃ machine, (session.load program).session =
      ⟨machine, session.sink, session.budget⟩ := by
  rw [load]
  split
  · exact ⟨_, rfl⟩
  · exact ⟨session.machine, rfl⟩

/-- After a reset a program that fits is the only thing in the machine. -/
theorem load_of_reset
    (session : Session σ) {program : List UInt8} (h : program.length ≤ 256) :
    session.reset.session.load program =
      ⟨⟨Machine.started program, session.sink, session.budget⟩, .ok (),
        #[.remark (.loaded program.length)]⟩ := by
  have hload : session.machine.reset.load program =
      .ok (Machine.started program) := by
    rw [Machine.reset_eq_initial]
    exact Machine.load_initial h
  simp only [load, reset, hload]

variable [Sink σ]

theorem session_step_of_accepts
    {session : Session σ} (h : Sink.Accepts session.sink) :
    ∃ machine lines, session.step.session =
      ⟨machine, Sink.writeAll session.sink lines, session.budget⟩ := by
  have hstep := congrArg Step.sink
    (Machine.step_of_accepts h h session.machine)
  refine ⟨(session.machine.step session.sink).machine,
    offeredLines (session.machine.step session.sink).events, ?_⟩
  rw [step]
  simp only [hstep]

theorem session_run_of_accepts
    {sink : σ} (h : Sink.Accepts sink) {fuel : Nat} {machine : Machine}
    {budget : Option Nat} {turn : Turn σ Report}
    (hrun : run fuel ⟨machine, sink, budget⟩ = some turn) :
    turn.session =
      ⟨turn.session.machine, Sink.writeAll sink turn.lines, budget⟩ := by
  have hself := run_of_accepts h h fuel machine budget
  rw [hrun] at hself
  exact congrArg Turn.session (Option.some.inj hself)

/-- A sink that accepts everything goes on doing so, and the budget stays. -/
theorem Reaches.accepts
    {first session : Session σ} (h : Reaches first session)
    (hfirst : Sink.Accepts first.sink) :
    Sink.Accepts session.sink ∧ session.budget = first.budget := by
  induction h with
  | refl => exact ⟨hfirst, rfl⟩
  | @load session _ program ih =>
      obtain ⟨machine, hload⟩ := session.session_load program
      rw [hload]
      exact ih
  | step _ ih =>
      obtain ⟨machine, lines, hstep⟩ := session_step_of_accepts ih.1
      rw [hstep]
      exact ⟨ih.1.writeAll lines, ih.2⟩
  | run _ hrun ih =>
      rw [session_run_of_accepts ih.1 hrun]
      exact ⟨ih.1.writeAll _, ih.2⟩
  | reset _ ih => exact ih

end Session

/-! ## What runs show -/

/-- What a run leaves to be seen: its report, and the lines that it has
written. -/
def Turn.shown {σ : Type} (turn : Turn σ Report) : Report × List String :=
  (turn.answer, turn.lines)

/-- Sinks that accept everything see the same. -/
theorem Session.map_shown_run
    {σ τ : Type} [Sink σ] [Sink τ] {sink : σ} {other : τ}
    (hsink : Sink.Accepts sink) (hother : Sink.Accepts other) (fuel : Nat)
    (machine : Machine) (budget : Option Nat) :
    (Session.run fuel ⟨machine, sink, budget⟩).map Turn.shown =
      (Session.run fuel ⟨machine, other, budget⟩).map Turn.shown := by
  rw [run_of_accepts hsink hother, Option.map_map]
  rfl

theorem exists_runProgram_of_accepts
    {σ : Type} [Sink σ] {program : List UInt8} (h : program.length ≤ 256)
    {sink : σ} (hsink : Sink.Accepts sink) (fuel : Nat)
    (budget : Option Nat) :
    ∃ ended, runProgram fuel program sink budget = .ok ended ∧
      ended.map Turn.shown =
        (Session.run fuel ⟨Machine.started program, sink, budget⟩).map
          Turn.shown ∧
      ∀ turn, ended = some turn →
        turn.session.sink = Sink.writeAll sink turn.lines := by
  refine ⟨_, runProgram_eq_run h fuel sink budget, ?_, ?_⟩
  · rw [Option.map_map]
    apply Option.map_congr
    intro turn _
    simp [Turn.shown, Turn.lines, offeredLines_cons_remark]
  · intro turn hturn
    obtain ⟨bare, hrun, rfl⟩ := Option.map_eq_some_iff.mp hturn
    have hsession := Session.session_run_of_accepts hsink hrun
    have hwritten := congrArg Session.sink hsession
    simpa [Turn.lines, offeredLines_cons_remark] using hwritten

/-- Zeros behind a program leave fresh memory as it is. -/
theorem Machine.started_append_zeros (program : List UInt8) (zeros : Nat) :
    started (program ++ List.replicate zeros 0) = started program := by
  have himage : Image.blank.overlay (program ++ List.replicate zeros 0) =
      Image.blank.overlay program := by
    rw [Image.overlay, Image.overlay]
    congr 2
    funext i
    by_cases hi : i.val < program.length
    · simp [List.getElem?_append_left hi, hi]
    · have hpast := Nat.not_lt.mp hi
      simp [List.getElem?_append_right hpast, hi, Image.blank,
        List.getElem?_getD_replicate_default_eq]
  rw [started, started, himage]

/-- Nothing of the past of a session is seen in a run after a reset.  Whatever
loads, steps, runs and resets a session with an accepting sink has been
through, once it is reset and a program is loaded, its run ends exactly when
the run of this program on a new machine ends, with the same report, and
writes the same lines behind what was written before.  Zeros behind the program
make no difference either. -/
theorem run_after_reset_matches_fresh
    {σ τ : Type} [Sink σ] [Sink τ] {first : σ} {fresh : τ}
    (hfirst : Sink.Accepts first) (hfresh : Sink.Accepts fresh)
    {budget : Option Nat} {session : Session σ}
    (hpast : Session.Reaches ⟨Machine.initial, first, budget⟩ session)
    {program : List UInt8} (hsize : program.length ≤ 256) (fuel : Nat) :
    let ready := session.reset.session.load program
    ∃ expected, runProgram fuel program fresh budget = .ok expected ∧
      (∀ turn, expected = some turn →
        turn.session.sink = Sink.writeAll fresh turn.lines) ∧
      ready.answer = .ok () ∧
      (ready.session.run fuel).map Turn.shown = expected.map Turn.shown ∧
      (∀ turn, ready.session.run fuel = some turn →
        turn.session.sink = Sink.writeAll session.sink turn.lines) ∧
      ∀ zeros, program.length + zeros ≤ 256 → ∃ padded,
        runProgram fuel (program ++ List.replicate zeros 0) fresh budget =
          .ok padded ∧
        padded.map Turn.shown = expected.map Turn.shown ∧
        ∀ turn, padded = some turn →
          turn.session.sink = Sink.writeAll fresh turn.lines := by
  intro ready
  obtain ⟨haccepts, hbudget⟩ := hpast.accepts hfirst
  have hready : ready = _ := session.load_of_reset hsize
  obtain ⟨expected, hexpected, hshown, hwritten⟩ :=
    exists_runProgram_of_accepts hsize hfresh fuel budget
  refine ⟨expected, hexpected, hwritten, ?_, ?_, ?_, ?_⟩
  · rw [hready]
  · rw [hready, hshown, hbudget]
    exact Session.map_shown_run haccepts hfresh fuel _ budget
  · intro turn hrun
    rw [hready] at hrun
    have hsession := Session.session_run_of_accepts haccepts hrun
    exact congrArg Session.sink hsession
  · intro zeros hzeros
    have hlength : (program ++ List.replicate zeros 0).length ≤ 256 := by
      simpa using hzeros
    obtain ⟨padded, hpadded, hsame, hfilled⟩ :=
      exists_runProgram_of_accepts hlength hfresh fuel budget
    rw [Machine.started_append_zeros, ← hshown] at hsame
    exact ⟨padded, hpadded, hsame, hfilled⟩

/-- A session in which a program pushed a value and then faulted runs the next
program as if it were new, with the message of the fault still in its sink. -/
theorem run_after_reset_matches_fresh_afterFault :
    ∃ session : Session Tape,
      Session.Reaches ⟨Machine.initial, {}, none⟩ session ∧
      session.machine.stack.pointer = 254 ∧
      session.sink.accepted = "fault: invalid register 9\n" ∧
      ((session.reset.session.load [10, 0]).session.run 5).map Turn.shown =
        some (⟨.halted, 2, 3, 255, RegisterBank.zero⟩, ["0\n"]) := by
  obtain ⟨opened, hopened⟩ : ∃ opened : Session Tape,
      opened = ⟨Machine.initial, {}, none⟩ := ⟨_, rfl⟩
  have hends : ((opened.load [1, 0, 5, 8, 0, 10, 9]).session.run 3).map
      (fun turn => (turn.session.machine.stack.pointer,
        turn.session.sink.accepted)) =
        some (254, "fault: invalid register 9\n") := by
    rw [hopened]
    decide +kernel
  have hfresh : (runProgram 5 [10, 0] (Tape.unlimited "") none).map
      (Option.map Turn.shown) =
        .ok (some (⟨.halted, 2, 3, 255, RegisterBank.zero⟩, ["0\n"])) := by
    decide +kernel
  obtain ⟨faulted, hrun, hleft⟩ := Option.map_eq_some_iff.mp hends
  obtain ⟨hpointer, htext⟩ := Prod.mk.inj hleft
  have hpast := (Session.Reaches.refl.load _).run hrun
  rw [hopened] at hpast
  obtain ⟨expected, hexpected, -, -, hshown, -⟩ :=
    run_after_reset_matches_fresh (Tape.accepts_unlimited "")
      (Tape.accepts_unlimited "") hpast
      (show [10, 0].length ≤ 256 by decide) 5
  refine ⟨faulted.session, hpast, hpointer, htext, ?_⟩
  rw [hexpected] at hfresh
  rw [hshown]
  exact Except.ok.inj hfresh

end ByteMachine
