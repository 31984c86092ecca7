import ByteMachine.Proofs.History
import ByteMachine.Proofs.Trace

/-!
# The budget of a run

A run with a budget looks, before each step, first whether the machine still
runs and then how far the step counter has moved since the run began.
`Machine.Loop` is that loop.  It always ends, because a step of a machine that
goes on running moves the counter by one, and it does not matter where the
counter stood, not even whether it wraps.  A halt counts as a step and a fault
does not, so that the budget is exact: what happens within it decides the
outcome, and where nothing ends the run, it is used up and the next run goes on
from there.
-/

namespace ByteMachine

namespace Machine

variable {σ : Type} [Sink σ]

/-! ## The loop over the step counter -/

/-- The loop of a run with a budget that began when the step counter stood at
`entry`: from a machine and its sink to the outcome and what is then left. -/
inductive Loop (entry : UInt64) (budget : Nat) :
    Machine → σ → Outcome → Machine → σ → Prop
  | stopped {machine : Machine} {sink : σ} (h : machine.running = false) :
      Loop entry budget machine sink machine.outcome machine sink
  | spent {machine : Machine} {sink : σ} (h : machine.running = true)
      (hspent : budget ≤ (machine.steps - entry).toNat) :
      Loop entry budget machine sink .stepLimit machine sink
  | step {machine last : Machine} {sink after : σ} {outcome : Outcome}
      (h : machine.running = true)
      (hleft : (machine.steps - entry).toNat < budget)
      (hrest : Loop entry budget (machine.step sink).machine
        (machine.step sink).sink outcome last after) :
      Loop entry budget machine sink outcome last after

theorem toNat_sub_of_eq_add
    {counter entry : UInt64} {count : Nat} (hcount : count < UInt64.size)
    (h : counter = entry + UInt64.ofNat count) :
    (counter - entry).toNat = count := by
  rw [h, UInt64.add_comm, UInt64.add_sub_cancel]
  exact UInt64.toNat_ofNat_of_lt' hcount

theorem loop_of_stopped
    {machine : Machine} (h : machine.running = false) (entry : UInt64)
    (budget left : Nat) (sink : σ) (journal : Array Event)
    {outcome : Outcome}
    (houtcome : (machine.advance left sink journal).machine.outcomeWithin
      (some budget) = some outcome) :
    Loop entry budget machine sink outcome
      (machine.advance left sink journal).machine
      (machine.advance left sink journal).sink := by
  rw [advance_of_stopped h] at houtcome ⊢
  rw [outcomeWithin_of_stopped h] at houtcome
  obtain rfl := Option.some.inj houtcome
  exact .stopped h

/-- The loop takes as many steps as are left of the budget. -/
theorem loop_of_count
    {entry : UInt64} {budget count left : Nat}
    (hbudget : budget < UInt64.size) (hleft : count + left = budget)
    {machine : Machine}
    (hcount : machine.running = true →
      machine.steps = entry + UInt64.ofNat count)
    (sink : σ) (journal : Array Event) {outcome : Outcome}
    (houtcome : (machine.advance left sink journal).machine.outcomeWithin
      (some budget) = some outcome) :
    Loop entry budget machine sink outcome
      (machine.advance left sink journal).machine
      (machine.advance left sink journal).sink := by
  induction left generalizing count machine sink journal with
  | zero =>
      by_cases hrunning : machine.running = true
      · have hmoved := toNat_sub_of_eq_add (by omega) (hcount hrunning)
        rw [advance, outcomeWithin, if_pos hrunning] at houtcome
        obtain rfl := Option.some.inj houtcome
        exact .spent hrunning (by omega)
      · exact loop_of_stopped (Bool.eq_false_iff.mpr hrunning) entry budget 0
          sink journal houtcome
  | succ left ih =>
      by_cases hrunning : machine.running = true
      · have hmoved := toNat_sub_of_eq_add (by omega) (hcount hrunning)
        -- A step that leaves the machine running has moved the counter.
        have hnext : (machine.step sink).machine.running = true →
            (machine.step sink).machine.steps =
              entry + UInt64.ofNat (count + 1) := by
          intro hgoing
          obtain ⟨-, -, hstep⟩ := retired_of_step_running hrunning hgoing
          rw [hstep, hcount hrunning, UInt64.add_assoc, UInt64.ofNat_add]
          rfl
        rw [advance_of_running hrunning] at houtcome ⊢
        exact .step hrunning (by omega) (ih (by omega) hnext _ _ houtcome)
      · exact loop_of_stopped (Bool.eq_false_iff.mpr hrunning) entry budget
          (left + 1) sink journal houtcome

/-! ## What happens within a budget -/

/-- The machine completes so many instructions, none of which is a halt. -/
def Works (machine : Machine) (sink : σ) (count : Nat) (last : Machine)
    (after : σ) : Prop :=
  ∃ moments : List Moment, machine.Trace sink moments last after ∧
    moments.length = count ∧ ∀ moment ∈ moments, moment.instruction ≠ .halt

theorem Trace.works
    {machine last : Machine} {sink after : σ} {moments : List Moment}
    (h : machine.Trace sink moments last after)
    (hrunning : last.running = true) :
    machine.Works sink moments.length last after := by
  refine ⟨moments, h, rfl, (h.running_iff ?_).mp hrunning⟩
  obtain ⟨hmachine, -⟩ := h.advance_eq #[]
  rw [← hmachine] at hrunning
  exact running_of_advance hrunning

/-- Where no fault and no halt comes within the limit, all steps are used up and
each of them completes an instruction. -/
theorem Course.works_of_no_end
    {machine last : Machine} {sink left : σ} {limit : Nat}
    {moments : List Moment} {ending : Ending}
    (h : machine.Course sink limit moments ending last left)
    (hnone : ∀ count before between, count < limit →
      machine.Works sink count before between →
        (∀ fault, (before.step between).result ≠ .error fault) ∧
        before.deed? between ≠ some (.retired .halt)) :
    ending = .unfinished ∧ moments.length = limit ∧ last.running = true ∧
      machine.Works sink limit last left := by
  cases h with
  | unfinished htrace hlength hrunning =>
      refine ⟨rfl, hlength, hrunning, ?_⟩
      rw [← hlength]
      exact htrace.works hrunning
  | halted htrace hlength hdeed =>
      have hworks := htrace.works (running_of_deed? hdeed)
      exact absurd hdeed (hnone _ _ _ hlength hworks).2
  | faulted htrace hlength hresult =>
      have hworks := htrace.works (running_of_step_error hresult)
      exact absurd hresult ((hnone _ _ _ hlength hworks).1 _)

end Machine

/-- A counter has grown by `n`, provided that it can count so far. -/
def GrowsBy (n : Nat) (counter next : UInt64) : Prop :=
  counter.toNat + n < UInt64.size → next.toNat = counter.toNat + n

theorem growsBy_add_ofNat (n : Nat) (counter : UInt64) :
    GrowsBy n counter (counter + UInt64.ofNat n) := by
  intro hsize
  have hn : (UInt64.ofNat n).toNat = n :=
    UInt64.toNat_ofNat_of_lt' (by omega)
  rw [UInt64.toNat_add, hn]
  exact Nat.mod_eq_of_lt hsize

namespace Session

variable {σ : Type} [Sink σ]

/-- With a budget a run always ends, and all that it shows is read off the
machine to which its steps lead. -/
theorem run_of_budget
    {session : Session σ} {budget : Nat}
    (hbudget : session.budget = some budget) (fuel : Nat) {last : Machine}
    {left : σ}
    (hmachine : (session.machine.advance budget session.sink #[]).machine =
      last)
    (hsink : (session.machine.advance budget session.sink #[]).sink = left) :
    ∃ outcome journal, last.outcomeWithin (some budget) = some outcome ∧
      session.run fuel = some ⟨⟨last, left, some budget⟩,
        report ⟨last, left, some budget⟩ outcome, journal⟩ := by
  obtain ⟨journal, hrun⟩ := session.run_eq fuel
  simp only [hbudget, Option.getD_some, after, hmachine, hsink] at hrun
  have hsome : (some budget).isSome := rfl
  obtain ⟨outcome, houtcome⟩ :=
    Option.isSome_iff_exists.mp (last.isSome_outcomeWithin hsome)
  rw [houtcome] at hrun
  exact ⟨outcome, journal, houtcome, hrun⟩

/-- The course of a run within its budget tells how it ends. -/
theorem run_of_course
    {session : Session σ} {budget : Nat}
    (hbudget : session.budget = some budget)
    (hfault : session.machine.lastFault = none) {moments : List Moment}
    {ending : Machine.Ending} {last : Machine} {left : σ}
    (hcourse : session.machine.Course session.sink budget moments ending last
      left) {fuel : Nat} {turn : Turn σ Report}
    (hrun : session.run fuel = some turn) :
    turn.session = ⟨last, left, some budget⟩ ∧
      turn.answer.outcome = ending.outcome ∧
      turn.answer.steps =
        session.machine.steps + UInt64.ofNat moments.length := by
  obtain ⟨hmachine, hsink⟩ := hcourse.advance_eq #[]
  obtain ⟨outcome, journal, houtcome, hends⟩ :=
    run_of_budget hbudget fuel hmachine hsink
  obtain rfl := Option.some.inj (hends.symm.trans hrun)
  exact ⟨rfl, hcourse.outcome_eq hfault houtcome, hcourse.steps_eq⟩

/-- A second run goes on where the first one ended, and the two of them do what
one run does whose budget is both together. -/
theorem run_again
    {session : Session σ} {budget : Nat}
    (hbudget : session.budget = some budget) {fuel : Nat}
    {first : Turn σ Report} (hfirst : session.run fuel = some first) :
    ∃ second single, first.session.run fuel = some second ∧
      Session.run fuel { session with budget := some (2 * budget) } =
        some single ∧
      second.session.machine = single.session.machine ∧
      second.session.sink = single.session.sink ∧
      second.answer = single.answer := by
  obtain ⟨_, _, -, hends⟩ := run_of_budget hbudget fuel rfl rfl
  obtain rfl := Option.some.inj (hends.symm.trans hfirst)
  have hwhole := session.machine.advance_add budget budget session.sink #[]
  generalize session.machine.advance budget session.sink #[] = middle
    at hwhole ⊢
  rw [← Nat.two_mul] at hwhole
  obtain ⟨hmachine, hsink⟩ := Machine.advance_congr_journal budget
    middle.machine middle.sink middle.journal #[]
  rw [← congrArg Advance.machine hwhole] at hmachine
  rw [← congrArg Advance.sink hwhole] at hsink
  let whole : Session σ := { session with budget := some (2 * budget) }
  let rest : Session σ := ⟨middle.machine, middle.sink, some budget⟩
  have hbudgetWhole : whole.budget = some (2 * budget) := rfl
  have hbudgetRest : rest.budget = some budget := rfl
  obtain ⟨outcome, _, houtcome, hsingle⟩ :=
    run_of_budget hbudgetWhole fuel hmachine hsink
  obtain ⟨other, _, hother, hsecond⟩ :=
    run_of_budget hbudgetRest fuel rfl rfl
  -- Of a budget only its presence matters to the outcome.
  obtain rfl := Option.some.inj (houtcome.symm.trans hother)
  exact ⟨_, _, hsecond, hsingle, rfl, rfl, rfl⟩

end Session

/-- The budget of a run is exact.  A fault or a halt within the budget ends the
run with the number of instructions that were completed; otherwise the run uses
up its budget, and nothing else happens to the machine.  This is what the loop
over the step counter does, wherever the counter stood, and a second run goes
on as one run with twice the budget would. -/
theorem step_budget_exact
    {σ : Type} [Sink σ] {past : List Deed} {session : Session σ}
    (hpast : History past session.machine)
    (hrunning : session.machine.running = true) {budget : Nat}
    (hbudget : session.budget = some budget) (fuel : Nat) :
    ∃ turn, session.run fuel = some turn ∧
      (∀ count last after fault, count < budget →
        session.machine.Works session.sink count last after →
        (last.step after).result = .error fault →
          turn.answer.outcome = .faulted fault.message ∧
          GrowsBy count session.machine.steps turn.answer.steps ∧
          turn.session = ⟨(last.step after).machine, (last.step after).sink,
            some budget⟩) ∧
      (∀ count last after, count < budget →
        session.machine.Works session.sink count last after →
        last.deed? after = some (.retired .halt) →
          turn.answer.outcome = .halted ∧
          GrowsBy (count + 1) session.machine.steps turn.answer.steps ∧
          turn.session = ⟨(last.step after).machine, (last.step after).sink,
            some budget⟩) ∧
      ((∀ count last after, count < budget →
        session.machine.Works session.sink count last after →
          (∀ fault, (last.step after).result ≠ .error fault) ∧
          last.deed? after ≠ some (.retired .halt)) →
        turn.answer.outcome = .stepLimit ∧
        GrowsBy budget session.machine.steps turn.answer.steps ∧
        turn.session.machine.running = true ∧
        session.machine.Works session.sink budget turn.session.machine
          turn.session.sink) ∧
      (budget < UInt64.size →
        Machine.Loop session.machine.steps budget session.machine session.sink
          turn.answer.outcome turn.session.machine turn.session.sink) ∧
      ∃ second single, turn.session.run fuel = some second ∧
        Session.run fuel { session with budget := some (2 * budget) } =
          some single ∧
        second.session.machine = single.session.machine ∧
        second.session.sink = single.session.sink ∧
        second.answer = single.answer := by
  have hfault := hpast.sound.lastFault hrunning
  obtain ⟨outcome, journal, houtcome, hrun⟩ :=
    Session.run_of_budget hbudget fuel rfl rfl
  refine ⟨_, hrun, ?_, ?_, ?_, ?_, Session.run_again hbudget hrun⟩
  · rintro count last after fault hcount ⟨moments, htrace, rfl, -⟩ hresult
    obtain ⟨hsession, hended, hsteps⟩ := Session.run_of_course hbudget hfault
      (.faulted htrace hcount hresult) hrun
    exact ⟨hended, hsteps ▸ growsBy_add_ofNat _ _, hsession⟩
  · rintro count last after hcount ⟨moments, htrace, rfl, -⟩ hdeed
    obtain ⟨hsession, hended, hsteps⟩ := Session.run_of_course hbudget hfault
      (.halted htrace hcount hdeed) hrun
    rw [List.length_append, List.length_singleton] at hsteps
    exact ⟨hended, hsteps ▸ growsBy_add_ofNat _ _, hsession⟩
  · intro hnone
    obtain ⟨moments, ending, hcourse⟩ := Machine.exists_course hrunning budget
      session.sink #[]
    obtain ⟨-, hended, hsteps⟩ :=
      Session.run_of_course hbudget hfault hcourse hrun
    obtain ⟨rfl, rfl, hgoing, hworks⟩ := hcourse.works_of_no_end hnone
    exact ⟨hended, hsteps ▸ growsBy_add_ofNat _ _, hgoing, hworks⟩
  · intro hsize
    exact Machine.loop_of_count hsize (Nat.zero_add budget)
      (fun _ => (UInt64.add_zero _).symm) session.sink #[] houtcome

/-- A machine that has already completed one instruction prints and then halts,
exactly on a budget of two. -/
theorem step_budget_exact_halt :
    ∃ session : Session Tape, session.machine.steps = 1 ∧
      session.budget = some 2 ∧ ∃ turn, session.run 0 = some turn ∧
        turn.answer.outcome = .halted ∧ turn.answer.steps.toNat = 3 := by
  have hload : Machine.initial.load [1, 0, 5, 10, 0, 0] =
      .ok (Machine.started [1, 0, 5, 10, 0, 0]) :=
    Machine.load_initial (by decide)
  have hpast := (History.initial.loaded hload).step ({} : Tape)
  obtain ⟨machine, hmachine⟩ : ∃ machine, machine =
      ((Machine.started [1, 0, 5, 10, 0, 0]).step ({} : Tape)).machine :=
    ⟨_, rfl⟩
  have hrunning : machine.running = true := by
    rw [hmachine]
    decide +kernel
  have hone : machine.steps = 1 := by
    rw [hmachine]
    decide +kernel
  have hprint : machine.deed? ({} : Tape) = some (.retired (.print 0)) := by
    rw [hmachine]
    decide +kernel
  have hhalt : (machine.step ({} : Tape)).machine.deed?
      (machine.step ({} : Tape)).sink = some (.retired .halt) := by
    rw [hmachine]
    decide +kernel
  have hworks : machine.Works ({} : Tape) 1 (machine.step ({} : Tape)).machine
      (machine.step ({} : Tape)).sink :=
    ⟨[⟨machine, .print 0⟩], .cons hprint (.nil _ _), rfl, by simp⟩
  rw [← hmachine] at hpast
  obtain ⟨turn, hrun, -, hhalts, -⟩ :=
    @step_budget_exact Tape _ _ ⟨machine, {}, some 2⟩ hpast hrunning 2 rfl 0
  obtain ⟨houtcome, hsteps, -⟩ := hhalts 1 _ _ (by decide) hworks hhalt
  rw [hone] at hsteps
  exact ⟨_, hone, rfl, turn, hrun, houtcome, hsteps (by decide)⟩

end ByteMachine
