import ByteMachine.Proofs.Boundaries
import ByteMachine.Proofs.Stepping

/-!
# Control flow of symbolic programs

A program whose jumps name labels only, and that holds no raw data, is executed
as it was written.  The program counter of the running machine is always a
boundary between statements: the next instruction starts where the last one
ends, and labels stand for boundaries.  So the machine fetches source
instructions, and behind the last of them a zero cell, which is a halt, unless
the program fills the memory.
-/

namespace ByteMachine

/-- Whether a statement is an instruction that jumps, if it does, to a label. -/
def Statement.IsSymbolic : Statement → Prop
  | instruction i => ∀ target ∈ i.target?, ∃ name, target = .label name
  | data _ => False

/-- Whether all statements of a layout are symbolic. -/
def Layout.IsSymbolic (layout : Layout) : Prop :=
  ∀ placed ∈ layout.placed.toList, placed.statement.IsSymbolic

/-- The machines that some number of steps leads to, each with any sink. -/
inductive Machine.Reaches (start : Machine) : Machine → Prop
  | refl : Reaches start start
  | step {machine : Machine} {σ : Type} [Sink σ] (h : Reaches start machine)
      (sink : σ) : Reaches start (machine.step sink).machine

/-! ## A program in fresh memory -/

namespace Outline

/-- What is known about the outline of a symbolic program that was assembled and
fits into memory. -/
structure Runnable (outline : Outline) : Prop where
  distinct : (names outline).Nodup
  closed : Closed outline
  symbolic : ∀ statement ∈ statements outline, statement.IsSymbolic
  registers : ∀ i, Statement.instruction i ∈ statements outline →
    ∀ r ∈ i.registers, r.toNat < 8
  short : (bytes outline).length ≤ 256

/-- The instruction that a source instruction is assembled to. -/
def assembled (outline : Outline) (i : Instruction Target) :
    Instruction Address :=
  i.retarget (Target.locate (position outline))

/-- A machine that holds the program and stands, while it runs, at a
boundary. -/
def OnBoundary (outline : Outline) (machine : Machine) : Prop :=
  machine.image = Image.blank.overlay (bytes outline) ∧
    (machine.running = true →
      Statement.IsBoundary (statements outline) machine.pc.toNat)

namespace Runnable

variable {outline : Outline} (h : outline.Runnable)
include h

/-- The jump targets of assembled instructions are boundaries. -/
theorem isBoundary_target
    {i : Instruction Target} (hmem : .instruction i ∈ statements outline)
    {target : Address} (htarget : (outline.assembled i).target? = some target) :
    Statement.IsBoundary (statements outline) target.toNat := by
  rw [assembled, Instruction.target?_retarget,
    Option.map_eq_some_iff] at htarget
  obtain ⟨written, hwritten, rfl⟩ := htarget
  obtain ⟨name, rfl⟩ := h.symbolic _ hmem written hwritten
  have hname : name ∈ names outline := h.closed _ hmem _ hwritten
  exact isBoundary_position h.distinct hname h.short

/-- Behind the program a machine fetches a halt, or nothing when the program
fills the memory. -/
theorem fetch_at_end
    {machine : Machine}
    (himage : machine.image = Image.blank.overlay (bytes outline))
    (hpc : machine.pc.toNat = (bytes outline).length) :
    ((bytes outline).length < 256 ∧
      ∃ next, machine.fetch = (.ok .halt, next)) ∨
    ((bytes outline).length = 256 ∧
      machine.fetch = (.error (.pcOutOfBounds 256), 256)) := by
  have hshort := h.short
  have hfrom := Image.from_overlay_blank h.short machine.pc.toNat
  rw [← himage, hpc, List.drop_left] at hfrom
  by_cases hlt : (bytes outline).length < 256
  · left
    obtain ⟨n, hn⟩ : ∃ n, 256 - (bytes outline).length = n + 1 :=
      ⟨255 - (bytes outline).length, by omega⟩
    have hhalt : (Instruction.halt : Instruction Address).encode <+:
        machine.image.from machine.pc.toNat := by
      rw [hpc, hfrom, hn, List.replicate_succ]
      exact List.cons_prefix_cons.mpr ⟨rfl, List.nil_prefix⟩
    exact ⟨hlt, _, Machine.fetch_of_encode_prefix (by omega) hhalt⟩
  · right
    have hfull : (bytes outline).length = 256 := by omega
    refine ⟨hfull, ?_⟩
    rw [hfull] at hfrom
    rw [Machine.fetch_eq (by omega), hpc, hfull, hfrom]
    rfl

/-- What a machine fetches at a boundary. -/
theorem fetch_cases
    {machine : Machine}
    (himage : machine.image = Image.blank.overlay (bytes outline))
    (hpc : Statement.IsBoundary (statements outline) machine.pc.toNat) :
    (∃ front i back next,
      statements outline = front ++ .instruction i :: back ∧
      machine.pc.toNat = Statement.totalSize front ∧
      (outline.assembled i).encode <+:
        (bytes outline).drop machine.pc.toNat ∧
      machine.fetch = (.ok (outline.assembled i), next) ∧
      Statement.IsBoundary (statements outline) next.toNat) ∨
    (machine.pc.toNat = (bytes outline).length ∧
      (bytes outline).length < 256 ∧
      ∃ next, machine.fetch = (.ok .halt, next)) ∨
    ((bytes outline).length = 256 ∧
      machine.fetch = (.error (.pcOutOfBounds 256), 256)) := by
  have hshort := h.short
  have hle := hpc.le
  rw [← length_bytes_eq_totalSize] at hle
  rcases hpc.cases with hend | ⟨front, statement, back, hall, hfront, hnext⟩
  · rw [← length_bytes_eq_totalSize] at hend
    rcases h.fetch_at_end himage hend with hhalt | hfull
    · exact .inr (.inl ⟨hend, hhalt⟩)
    · exact .inr (.inr hfull)
  · left
    have hsymbolic : statement.IsSymbolic := by
      apply h.symbolic
      simp [hall]
    cases statement with
    | data values => exact absurd hsymbolic id
    | instruction i =>
        have hencode : (outline.assembled i).encode <+:
            (bytes outline).drop machine.pc.toNat := by
          rw [hfront, bytes, hall, Statement.drop_flatMap_bytes,
            List.flatMap_cons]
          exact List.prefix_append _ _
        have hmemory : (outline.assembled i).encode <+:
            machine.image.from machine.pc.toNat := by
          rw [himage, Image.from_overlay_blank h.short,
            List.drop_append_of_le_length hle]
          exact hencode.trans (List.prefix_append _ _)
        have hpcLe : machine.pc.toNat ≤ 256 := by omega
        have hfetch := Machine.fetch_of_encode_prefix hpcLe hmemory
        have hmoved := (Machine.toNat_fetch_le hpcLe).2
        rw [hfetch] at hmoved
        refine ⟨front, i, back, _, hall, hfront, hencode, hfetch, ?_⟩
        rw [hmoved _ rfl, assembled, Instruction.size_retarget]
        exact hnext

/-- At a boundary a source instruction is fetched, or a halt at the end. -/
theorem of_fetch_ok
    {machine : Machine}
    (himage : machine.image = Image.blank.overlay (bytes outline))
    (hpc : Statement.IsBoundary (statements outline) machine.pc.toNat)
    {instruction : Instruction Address} {next : Address}
    (hfetch : machine.fetch = (.ok instruction, next)) :
    (∃ front i back,
      statements outline = front ++ .instruction i :: back ∧
      machine.pc.toNat = Statement.totalSize front ∧
      instruction.encode <+: (bytes outline).drop machine.pc.toNat ∧
      instruction = outline.assembled i ∧
      Statement.IsBoundary (statements outline) next.toNat) ∨
    (instruction = .halt ∧ machine.pc.toNat = (bytes outline).length ∧
      (bytes outline).length < 256) := by
  rcases h.fetch_cases himage hpc with
    ⟨front, i, back, other, hall, hfront, hencode, hother, hnext⟩ |
    ⟨hend, hlt, other, hother⟩ | ⟨-, hother⟩
  · obtain ⟨hinstruction, rfl⟩ := Prod.mk.inj (hfetch.symm.trans hother)
    obtain rfl := Except.ok.inj hinstruction
    exact .inl ⟨front, i, back, hall, hfront, hencode, rfl, hnext⟩
  · obtain ⟨hinstruction, -⟩ := Prod.mk.inj (hfetch.symm.trans hother)
    exact .inr ⟨Except.ok.inj hinstruction, hend, hlt⟩
  · cases (Prod.mk.inj (hfetch.symm.trans hother)).1

/-- At a boundary a fetch fails only behind a program that fills the memory. -/
theorem of_fetch_error
    {machine : Machine}
    (himage : machine.image = Image.blank.overlay (bytes outline))
    (hpc : Statement.IsBoundary (statements outline) machine.pc.toNat)
    {fault : Fault} {next : Address}
    (hfetch : machine.fetch = (.error fault, next)) :
    (bytes outline).length = 256 ∧ fault = .pcOutOfBounds 256 := by
  rcases h.fetch_cases himage hpc with
    ⟨_, _, _, _, -, -, -, hother, -⟩ | ⟨-, -, _, hother⟩ | ⟨hfull, hother⟩
  · cases (Prod.mk.inj (hfetch.symm.trans hother)).1
  · cases (Prod.mk.inj (hfetch.symm.trans hother)).1
  · obtain ⟨hfault, -⟩ := Prod.mk.inj (hfetch.symm.trans hother)
    exact ⟨hfull, Except.error.inj hfault⟩

/-- One step leads from boundary to boundary. -/
theorem onBoundary_step
    {machine next : Machine} {deed : Deed}
    (hrunning : machine.running = true) (hto : machine.StepsTo deed next)
    (hon : outline.OnBoundary machine) : outline.OnBoundary next := by
  obtain ⟨himage, hpc⟩ := hon
  cases hto with
  | unfetched | unfit | unprinted =>
      exact ⟨himage, fun hstopped => by cases hstopped⟩
  | @retired instruction effect after hfetch heffect =>
      refine ⟨himage, ?_⟩
      have hcompletes := Instruction.completes_of_effect heffect
      intro hgoing
      rcases h.of_fetch_ok himage (hpc hrunning) hfetch with
        ⟨front, i, back, hall, -, -, rfl, hnext⟩ | ⟨rfl, -, -⟩
      · rcases hcompletes.pc with hafter | htarget
        · change Statement.IsBoundary _ effect.pc.toNat
          rw [hafter]
          exact hnext
        · exact h.isBoundary_target (by simp [hall]) htarget
      · have hhalts : effect.halts = true := hcompletes.halts.mpr rfl
        simp [Machine.retire, hhalts] at hgoing

/-- Every number of steps leads to a boundary. -/
theorem onBoundary_of_reaches
    {start machine : Machine} (hreaches : start.Reaches machine)
    (hstart : outline.OnBoundary start) : outline.OnBoundary machine := by
  induction hreaches with
  | refl => exact hstart
  | step hreaches sink ih =>
      have hkeep : ∀ (_ : List Deed) machine deed next,
          machine.running = true → machine.StepsTo deed next →
            outline.OnBoundary machine → outline.OnBoundary next :=
        fun _ _ _ _ hrunning hto => h.onBoundary_step hrunning hto
      exact @Machine.step_induction _ _ _ hkeep [] _ sink ih

/-- The control faults that are left: the end of a full memory is reached. -/
theorem fault_of_onBoundary
    {machine next : Machine} {fault : Fault}
    (hrunning : machine.running = true)
    (hto : machine.StepsTo (.faulted fault) next)
    (hon : outline.OnBoundary machine) :
    (∀ r, fault ≠ .invalidRegister r) ∧
      (∀ byte address, fault ≠ .illegalOpcode byte address) ∧
      ∀ address,
        fault = .pcOutOfBounds address ∨ fault = .addressOutOfBounds address →
          (bytes outline).length = 256 ∧ address = 256 := by
  obtain ⟨himage, hpc⟩ := hon
  cases hto with
  | unfetched hfetch =>
      obtain ⟨hfull, rfl⟩ := h.of_fetch_error himage (hpc hrunning) hfetch
      simp [hfull, eq_comm]
  | unprinted => simp
  | unfit hfetch heffect =>
      rcases h.of_fetch_ok himage (hpc hrunning) hfetch with
        ⟨front, i, back, hall, -, -, rfl, -⟩ | ⟨rfl, -, -⟩
      · have hmem : Statement.instruction i ∈ statements outline := by
          simp [hall]
        rcases Instruction.fault_cases_of_effect heffect with
          ⟨r, hr, hlarge, -⟩ | ⟨target, htarget, hlarge, rfl⟩ | ⟨r, rfl⟩ |
          rfl | rfl
        · rw [assembled, Instruction.registers_retarget] at hr
          exact absurd (h.registers i hmem r hr) (Nat.not_lt.mpr hlarge)
        · have hle := (h.isBoundary_target hmem htarget).le
          rw [← length_bytes_eq_totalSize] at hle
          have hshort := h.short
          have hend : target = 256 :=
            eq_of_toNat_le_of_not_lt (by omega) (Nat.not_lt.mpr hlarge)
          have hfull : (bytes outline).length = 256 := by omega
          simp [hfull, hend, eq_comm]
        · simp
        · simp
        · simp
      · cases heffect

end Runnable

end Outline

/-! ## The assembled text -/

/-- A symbolic text that assembles to a short program has a runnable outline. -/
theorem exists_runnable
    {source : String} {program : Program} {layout : Layout}
    (hassemble : assemble source = .ok program)
    (hlayout : Layout.ofText source.toList = .ok layout)
    (hsymbolic : layout.IsSymbolic) (hsize : program.bytes.length ≤ 256) :
    ∃ outline : Outline, outline.Runnable ∧
      program = ⟨Outline.bytes outline, Outline.labelTable outline⟩ ∧
      layout.placed.toList = Outline.placements 1 0 outline := by
  obtain ⟨outline, houtline, hadmissible, hclosed, rfl⟩ :=
    assemble_eq_ok_iff.mp hassemble
  have hplaced : Layout.ofText source.toList =
      .ok (Layout.ofOutline outline) :=
    Layout.ofText_eq_ok_iff.mpr ⟨outline, houtline, hadmissible, rfl⟩
  obtain rfl := Except.ok.inj (hlayout.symm.trans hplaced)
  have hplacements := Layout.placed_ofOutline outline
  refine ⟨outline, ⟨hadmissible.distinct, hclosed, ?_, ?_, hsize⟩, rfl,
    hplacements⟩
  · intro statement hmem
    rw [← Outline.map_statement_placements 1 0, ← hplacements] at hmem
    obtain ⟨placed, hin, rfl⟩ := List.mem_map.mp hmem
    exact hsymbolic placed hin
  · intro i hmem
    exact Outline.registers_lt_of_isOutlineOf houtline hmem

/-- An assembled instruction is what resolution makes of the written one. -/
theorem Outline.resolve_eq_assembled
    {outline : Outline} (hdistinct : (names outline).Nodup)
    (hclosed : Closed outline) {i : Instruction Target}
    (hmem : .instruction i ∈ statements outline) :
    i.resolve (Target.resolve (labelTable outline)) =
      .ok (outline.assembled i) := by
  refine (Instruction.resolve_eq_ok_iff Target.resolve_eq_ok_iff).mpr ⟨?_, ?_⟩
  · intro target htarget
    have hdefined := hclosed _ hmem target htarget
    cases target with
    | address value => trivial
    | label name =>
        rw [Target.IsDefined, map_fst_labelTable, List.mem_reverse]
        exact hdefined
  · rw [position_eq_lookup hdistinct]
    rfl

theorem Image.read?_overlay_blank
    {program : List UInt8} {address : Address} (hlt : address.toNat < 256)
    (hend : program.length ≤ address.toNat) :
    (Image.blank.overlay program).read? address = some 0 := by
  rw [Image.read?_overlay]
  simp [Image.read?, Image.blank, hlt, List.getElem?_eq_none hend]

/-- Run from fresh memory, a symbolic program executes its own instructions,
each fetched from where it was placed, and possibly a halt from the zero cells
behind it.  It names no foreign register and meets no illegal byte, and it can
leave the memory only at its end and only when it fills the memory. -/
theorem symbolic_control_flow
    {source : String} {program : Program} {layout : Layout}
    (hassemble : assemble source = .ok program)
    (hlayout : Layout.ofText source.toList = .ok layout)
    (hsymbolic : layout.IsSymbolic) (hsize : program.bytes.length ≤ 256) :
    ∃ start, Machine.initial.load program.bytes = .ok start ∧
      ∀ machine, start.Reaches machine →
        (∀ instruction next, machine.running = true →
          machine.fetch = (.ok instruction, next) →
            (∃ placed ∈ layout.placed.toList, ∃ i,
              placed.statement = .instruction i ∧
              placed.address = machine.pc.toNat ∧
              i.resolve (Target.resolve program.labels) = .ok instruction ∧
              instruction.encode <+: program.bytes.drop placed.address) ∨
            (instruction = .halt ∧
              program.bytes.length ≤ machine.pc.toNat ∧
              machine.image.read? machine.pc = some 0)) ∧
        ∀ (σ : Type) [Sink σ] (sink : σ) (fault : Fault),
          (machine.step sink).result = .error fault →
            (∀ r, fault ≠ .invalidRegister r) ∧
            (∀ byte address, fault ≠ .illegalOpcode byte address) ∧
            ∀ address, fault = .pcOutOfBounds address ∨
                fault = .addressOutOfBounds address →
              program.bytes.length = 256 ∧ address = 256 := by
  obtain ⟨outline, h, rfl, hplaced⟩ :=
    exists_runnable hassemble hlayout hsymbolic hsize
  have hload : Machine.initial.load (Outline.bytes outline) =
      .ok { Machine.initial with
        image := Image.blank.overlay (Outline.bytes outline)
        running := true } := by
    simp [Machine.load, Machine.initial, Image.load, Image.capacity, h.short]
  refine ⟨_, hload, ?_⟩
  intro machine hreaches
  have hon := h.onBoundary_of_reaches hreaches
    ⟨rfl, fun _ => ⟨[], _, rfl, rfl⟩⟩
  refine ⟨?_, ?_⟩
  · intro instruction next hrunning hfetch
    rcases h.of_fetch_ok hon.1 (hon.2 hrunning) hfetch with
      ⟨front, i, back, hall, hpc, hencode, rfl, -⟩ | ⟨rfl, hpc, hlt⟩
    · obtain ⟨placed, hmem, hstatement, haddress⟩ :=
        Outline.exists_mem_placements hall 1 0
      have hat : placed.address = machine.pc.toNat := by
        rw [haddress, hpc, Nat.zero_add]
      refine .inl ⟨placed, hplaced ▸ hmem, i, hstatement, hat, ?_, ?_⟩
      · exact Outline.resolve_eq_assembled h.distinct h.closed (by simp [hall])
      · rw [hat]
        exact hencode
    · have hend := Nat.le_of_eq hpc.symm
      have hzero : machine.image.read? machine.pc = some 0 := by
        rw [hon.1]
        exact Image.read?_overlay_blank (hpc ▸ hlt) hend
      exact .inr ⟨rfl, hend, hzero⟩
  · intro σ _ sink fault hresult
    by_cases hrunning : machine.running = true
    · obtain ⟨deed, hdeed, hto⟩ := Machine.step_of_running hrunning sink
      rw [Machine.deed?_of_error hrunning hresult] at hdeed
      obtain rfl := Option.some.inj hdeed
      exact h.fault_of_onBoundary hrunning hto hon
    · rw [Machine.step, if_neg hrunning] at hresult
      cases hresult

/-- A loop with a way out to the end of the program, where nothing stands. -/
theorem symbolic_control_flow_loop :
    ∃ start, Machine.initial.load [1, 0, 1, 7, 0, 0, 10, 6, 0, 0] = .ok start ∧
      ∀ machine, start.Reaches machine → ∀ (σ : Type) [Sink σ] (sink : σ)
        (address : Address),
        (machine.step sink).result ≠ .error (.pcOutOfBounds address) := by
  have hassemble :
      assemble "top: load r0 1 ; DB 7\n\njz r0, out\njmp top\nout:" =
        .ok ⟨[1, 0, 1, 7, 0, 0, 10, 6, 0, 0], [("out", 10), ("top", 0)]⟩ := by
    decide +kernel
  have hlayout : Layout.ofText
      "top: load r0 1 ; DB 7\n\njz r0, out\njmp top\nout:".toList =
        .ok ⟨[("out", 10), ("top", 0)],
          #[⟨1, 0, .instruction (.load 0 1)⟩,
            ⟨3, 3, .instruction (.jumpIfZero 0 (.label "out"))⟩,
            ⟨4, 7, .instruction (.jump (.label "top"))⟩], 10⟩ := by
    decide +kernel
  obtain ⟨start, hload, hruns⟩ := symbolic_control_flow hassemble hlayout
    (by simp [Layout.IsSymbolic, Statement.IsSymbolic, Instruction.target?])
    (by decide)
  refine ⟨start, hload, ?_⟩
  intro machine hreaches σ _ sink address hfault
  have hfull := ((hruns machine hreaches).2 σ sink _ hfault).2.2 address
    (.inl rfl)
  exact absurd hfull.1 (by decide)

end ByteMachine
