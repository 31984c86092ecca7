import ByteMachine.Proofs.History
import ByteMachine.Session.Basic

/-!
# What the memory holds

Instructions read the memory and never write it, so that what it holds is told
by the loads in the past of a machine.  A program is laid over the first cells
only: behind a short one the cells of older programs stay, back to the last
reset.  Each cell therefore has its own latest program, which is the latest one
that is long enough to reach it.
-/

namespace ByteMachine

/-- The programs loaded since the last reset, the latest first. -/
def loadsSince : List Deed → List (List UInt8)
  | [] => []
  | .reset :: _ => []
  | .loaded program :: past => program :: loadsSince past
  | .refused _ :: past => loadsSince past
  | .retired _ :: past => loadsSince past
  | .faulted _ :: past => loadsSince past

/-- The byte at a position of the first program that has one there; zero where
none has. -/
def reachingByte (programs : List (List UInt8)) (i : Nat) : UInt8 :=
  match programs.find? fun program => i < program.length with
  | some program => program.getD i 0
  | none => 0

theorem reachingByte_cons
    (program : List UInt8) (programs : List (List UInt8)) (i : Nat) :
    reachingByte (program :: programs) i =
      program.getD i (reachingByte programs i) := by
  by_cases hi : i < program.length
  · simp [reachingByte, hi]
  · simp [reachingByte, hi]

theorem Image.getElem_overlay
    (image : Image) (program : List UInt8) {i : Nat} (hi : i < 256) :
    (image.overlay program).cells[i] = program.getD i image.cells[i] := by
  simp [overlay]

namespace Machine

/-! ## Steps and loads -/

theorem StepsTo.image_eq
    {machine next : Machine} {deed : Deed} (h : machine.StepsTo deed next) :
    next.image = machine.image := by
  cases h <;> rfl

/-- A step is no load. -/
theorem StepsTo.loadsSince_eq
    {machine next : Machine} {deed : Deed} (h : machine.StepsTo deed next)
    (past : List Deed) : loadsSince (deed :: past) = loadsSince past := by
  cases h <;> rfl

section Instructions

variable {σ : Type} [Sink σ] {machine : Machine}

theorem image_step (machine : Machine) (sink : σ) :
    (machine.step sink).machine.image = machine.image := by
  apply @step_induction _ _ (fun _ later => later.image = machine.image) ?_
    [] machine sink rfl
  intro _ _ _ _ _ hto hsame
  exact hto.image_eq.trans hsame

theorem image_execute
    {fuel : Nat} {sink : σ} {journal : Array Event} {execution : Execution σ}
    (h : machine.execute fuel sink journal = some execution) :
    execution.machine.image = machine.image := by
  apply @execute_induction _ _ (fun _ later => later.image = machine.image) ?_
    _ [] _ _ _ _ h rfl
  intro _ _ _ _ _ hto hsame
  exact hto.image_eq.trans hsame

end Instructions

/-- A load is refused for its size alone.  An accepted one lays the program
over the memory and arms the machine. -/
theorem load_eq (machine : Machine) (program : List UInt8) :
    machine.load program =
      if program.length ≤ 256 then
        .ok { machine with
          image := machine.image.overlay program
          running := true
          lastFault := none }
      else
        .error ⟨program.length, 256⟩ := by
  rw [load, Image.load, Image.capacity]
  by_cases hsize : program.length ≤ 256
  · rw [if_pos hsize, if_pos hsize]
    rfl
  · rw [if_neg hsize, if_neg hsize]
    rfl

theorem image_of_load
    {machine next : Machine} {program : List UInt8}
    (h : machine.load program = .ok next) :
    next.image = machine.image.overlay program := by
  rw [load_eq] at h
  split at h
  · obtain rfl := Except.ok.inj h
    rfl
  · cases h

/-! ## The contents -/

/-- Each cell holds what the latest program that reaches it has there. -/
def Remembers (machine : Machine) (past : List Deed) : Prop :=
  ∀ i (hi : i < 256),
    machine.image.cells[i] = reachingByte (loadsSince past) i

theorem remembers_initial
    {past : List Deed} (h : loadsSince past = []) :
    initial.Remembers past := by
  intro i hi
  simp [initial, Image.blank, h, reachingByte]

theorem Remembers.step
    {machine next : Machine} {past : List Deed} {deed : Deed}
    (hto : machine.StepsTo deed next) (h : machine.Remembers past) :
    next.Remembers (deed :: past) := by
  rw [Remembers, hto.image_eq, hto.loadsSince_eq past]
  exact h

theorem Remembers.load
    {machine next : Machine} {past : List Deed} {program : List UInt8}
    (hload : machine.load program = .ok next) (h : machine.Remembers past) :
    next.Remembers (.loaded program :: past) := by
  intro i hi
  rw [image_of_load hload, Image.getElem_overlay _ _ hi, h i hi, loadsSince,
    reachingByte_cons]

end Machine

/-- Every history is remembered. -/
theorem History.remembers
    {past : List Deed} {machine : Machine} (h : History past machine) :
    machine.Remembers past := by
  induction h with
  | initial => exact Machine.remembers_initial rfl
  | loaded _ hload ih => exact ih.load hload
  | refused _ _ ih => exact ih
  | step _ sink ih =>
      exact Machine.step_induction
        (p := fun past machine => machine.Remembers past)
        (fun _ _ _ _ _ => Machine.Remembers.step) sink ih
  | execute _ hexecute ih =>
      exact Machine.execute_induction
        (p := fun past machine => machine.Remembers past)
        (fun _ _ _ _ _ => Machine.Remembers.step) hexecute ih
  | reset _ _ =>
      rw [Machine.reset_eq_initial]
      exact Machine.remembers_initial rfl

/-- Over any history of loads, steps, executions and resets, a cell holds the
byte of the latest program since the last reset that reaches it, and zero where
none does.  Neither a step nor an execution changes the memory.  A load is
refused exactly when the program has more than 256 bytes, and then nothing
changes; an accepted one changes nothing but the memory, the running flag and
the recorded fault. -/
theorem memory_over_histories
    {past : List Deed} {machine : Machine} (h : History past machine) :
    (∀ i (hi : i < 256),
      machine.image.cells[i] = reachingByte (loadsSince past) i) ∧
    (∀ (σ : Type) [Sink σ] (sink : σ),
      (machine.step sink).machine.image = machine.image ∧
      ∀ fuel journal execution,
        machine.execute fuel sink journal = some execution →
          execution.machine.image = machine.image) ∧
    ∀ program : List UInt8,
      ((∃ error, machine.load program = .error error) ↔
        256 < program.length) ∧
      (∀ next, machine.load program = .ok next → ∃ image,
        next = { machine with
          image := image, running := true, lastFault := none }) ∧
      ∀ (σ : Type) (sink : σ) (budget : Option Nat),
        256 < program.length →
          (Session.load ⟨machine, sink, budget⟩ program).session =
            ⟨machine, sink, budget⟩ := by
  refine ⟨h.remembers, ?_, ?_⟩
  · intro σ _ sink
    refine ⟨machine.image_step sink, ?_⟩
    intro fuel journal execution hexecute
    exact Machine.image_execute hexecute
  · intro program
    have hload := machine.load_eq program
    by_cases hsize : program.length ≤ 256
    · rw [if_pos hsize] at hload
      refine ⟨?_, ?_, ?_⟩
      · simp [hload, hsize]
      · intro next hnext
        obtain rfl := Except.ok.inj (hload.symm.trans hnext)
        exact ⟨_, rfl⟩
      · intro σ sink budget hlarge
        exact absurd hsize (Nat.not_le.mpr hlarge)
    · rw [if_neg hsize] at hload
      refine ⟨?_, ?_, ?_⟩
      · simp [hload, Nat.not_le.mp hsize]
      · intro next hnext
        cases hload.symm.trans hnext
      · intro σ sink budget _
        simp [Session.load, hload]

/-- After a reset, a program of three bytes, a step, one of a single byte and
one that is too long, the cells show the two that were accepted, and nothing of
the program before the reset. -/
theorem memory_over_histories_staleTail :
    ∃ past machine, History past machine ∧
      loadsSince past = [[9], [1, 0, 5]] ∧
      machine.image.cells[0]? = some 9 ∧ machine.image.cells[2]? = some 5 ∧
      machine.image.cells[3]? = some 0 := by
  have hfirst : Machine.initial.load [7, 7, 7, 7] =
      .ok (Machine.started [7, 7, 7, 7]) :=
    Machine.load_initial (by decide)
  have hsecond : Machine.initial.load [1, 0, 5] =
      .ok (Machine.started [1, 0, 5]) :=
    Machine.load_initial (by decide)
  obtain ⟨past, machine, hpast, hloads⟩ : ∃ past machine,
      History past machine ∧ loadsSince past = [[1, 0, 5]] :=
    ⟨_, _, ((History.initial.loaded hfirst).reset.loaded hsecond).step
      ({} : Tape), by decide +kernel⟩
  obtain ⟨next, hnext⟩ : ∃ next, machine.load [9] = .ok next :=
    ⟨_, machine.load_eq [9]⟩
  have hrefused : next.load (List.replicate 257 0) = .error ⟨257, 256⟩ := by
    rw [Machine.load_eq, List.length_replicate, if_neg (by decide)]
  have hend := (hpast.loaded hnext).refused hrefused
  have hsince : loadsSince (.refused (List.replicate 257 0) ::
      .loaded [9] :: past) = [[9], [1, 0, 5]] := by
    rw [loadsSince, loadsSince, hloads]
  obtain ⟨hcells, -⟩ := memory_over_histories hend
  have hcell : ∀ i < 256, next.image.cells[i]? =
      some (reachingByte [[9], [1, 0, 5]] i) := by
    intro i hi
    rw [Vector.getElem?_eq_getElem hi, hcells i hi, hsince]
  exact ⟨_, next, hend, hsince, hcell 0 (by decide), hcell 2 (by decide),
    hcell 3 (by decide)⟩

end ByteMachine
