import ByteMachine.Proofs.InstructionTable
import ByteMachine.Proofs.Tiling

/-!
# Listings tell what a machine does

A listing and a running machine walk through the same bytes on their own, one
with a position in a byte string and one with a program counter that faults at
the end of the memory.  They agree: a line that starts at the program counter
shows the instruction that the next step carries out, or the bytes that it
cannot fetch as one, and the listing goes on where the machine does.
-/

namespace ByteMachine

/-- An instruction sends the machine somewhere else than behind itself. -/
def Instruction.TakesJump (bank : RegisterBank) :
    Instruction Address → Prop
  | jump _ => True
  | jumpIfZero register _ => bank.content? register = some 0
  | _ => False

theorem Instruction.Row.pc_of_not_takesJump
    {bank : RegisterBank} {stack : OperandStack} {next : Address}
    {instruction : Instruction Address} {effect : Effect}
    (h : Row bank stack next instruction effect)
    (hstraight : ¬instruction.TakesJump bank) : effect.pc = next := by
  have hpc := h.pc
  cases instruction with
  | jump target => exact absurd trivial hstraight
  | jumpIfZero register target => exact hpc.trans (if_neg hstraight)
  | halt | load | arithmetic | push | pop | print => exact hpc

namespace ListingLine

/-- A line tells what the next step of a machine does, whatever its sink, and
that a machine that goes straight on comes to the position `next`. -/
structure Describes (line : ListingLine) (machine : Machine) (next : Nat) :
    Prop where
  decoded : ∀ instruction, line.instruction = some instruction →
    machine.fetch.1 = .ok instruction ∧
    ∀ (σ : Type) [Sink σ] (sink : σ),
      machine.Follows sink instruction (machine.step sink) ∧
      ((machine.step sink).result = .ok .running →
        ¬instruction.TakesJump machine.registers →
          (machine.step sink).machine.pc.toNat = next)
  undecoded : line.instruction = none →
    (∃ byte, line.bytes = [byte] ∧ Opcode.ofByte? byte = none ∧
      ∀ (σ : Type) [Sink σ] (sink : σ), (machine.step sink).result =
        .error (.illegalOpcode byte machine.pc)) ∨
    (∃ operation rest, line.bytes = Opcode.byte operation :: rest ∧
      rest.length < operation.operandBytes ∧ next = 256 ∧
      ∀ (σ : Type) [Sink σ] (sink : σ), (machine.step sink).result =
        .error (.pcOutOfBounds 256))

variable {machine : Machine}

theorem describes_of_instruction
    {line : ListingLine} {instruction : Instruction Address}
    (hrunning : machine.running = true)
    (hline : line.instruction = some instruction)
    (hat : instruction.encode <+: machine.image.from machine.pc.toNat) :
    line.Describes machine (machine.pc.toNat + instruction.size) := by
  constructor
  · intro other hother
    obtain rfl := Option.some.inj (hline.symm.trans hother)
    obtain ⟨-, after, hfetch, -⟩ := Machine.fetch_of_at hat
    refine ⟨congrArg Prod.fst hfetch, ?_⟩
    intro σ _ sink
    have hfollows := Machine.follows_of_at hrunning hat sink
    refine ⟨hfollows, ?_⟩
    intro hresult hstraight
    have hnone : instruction.firstFault? machine sink = none := by
      rw [Option.eq_none_iff_forall_ne_some]
      intro fault hfault
      have herror := (hfollows.faults fault).mpr hfault
      cases hresult.symm.trans herror
    obtain ⟨next, effect, hnext, hrow, hmachine⟩ :=
      (hfollows.performs hnone).state
    rw [hmachine, ← hnext, ← hrow.pc_of_not_takesJump hstraight]
  · intro hnone
    cases hline.symm.trans hnone

/-- The line of the bytes at the program counter describes the next step. -/
theorem describes_ofBytes
    {first : UInt8} {rest : List UInt8} (hrunning : machine.running = true)
    (hbytes : machine.image.from machine.pc.toNat = first :: rest)
    (offset : Nat) :
    (ofBytes offset first rest).Describes machine
      (machine.pc.toNat + (ofBytes offset first rest).bytes.length) := by
  have hlength := machine.image.length_from machine.pc.toNat
  rw [hbytes, List.length_cons] at hlength
  have hfetch := @Machine.fetch_eq machine (by omega)
  rw [hbytes] at hfetch
  rcases ofBytes_cases offset first rest with
    ⟨instruction, hfront, hline⟩ | ⟨hfirst, hline⟩ |
    ⟨operation, hfirst, hshort, hline⟩
  · rw [hline, Instruction.length_encode]
    rw [← hbytes] at hfront
    exact describes_of_instruction hrunning rfl hfront
  · rw [hline]
    simp only [hfirst] at hfetch
    refine ⟨by simp, ?_⟩
    intro _
    refine .inl ⟨first, rfl, hfirst, ?_⟩
    intro σ _ sink
    rw [Machine.step_of_unfetched hrunning hfetch]
    rfl
  · rw [hline]
    simp only [hfirst, if_neg (Nat.not_le.mpr hshort)] at hfetch
    refine ⟨by simp, ?_⟩
    intro _
    have hbyte := Opcode.byte_of_ofByte? hfirst
    refine .inr ⟨operation, rest, by rw [hbyte], hshort, ?_, ?_⟩
    · rw [List.length_cons]
      omega
    · intro σ _ sink
      rw [Machine.step_of_unfetched hrunning hfetch]
      rfl

/-- A line of a listing that starts anywhere in the memory describes the step
of a machine that stands at the line. -/
theorem describes_of_lines
    (hrunning : machine.running = true) {base : Nat}
    {front back : List ListingLine} {line : ListingLine}
    (hlines : Listing.lines (machine.image.from base) = front ++ line :: back)
    (hpc : machine.pc.toNat = base + line.offset) :
    line.Describes machine
      (base + (back.head?.map ListingLine.offset).getD (256 - base)) := by
  obtain ⟨-, ⟨first, rest, hdrop, hline⟩, hnext⟩ :=
    Listing.exists_of_linesFrom_eq hlines
  have hbytes : machine.image.from machine.pc.toNat = first :: rest := by
    rw [hpc, ← hdrop, Nat.sub_zero, Image.from, Image.from, List.drop_drop]
  rw [Nat.zero_add, Image.length_from] at hnext
  rw [hnext, ← Nat.add_assoc, ← hpc, hline]
  exact describes_ofBytes hrunning hbytes _

end ListingLine

/-- A line of the listing of a machine's memory that starts at the program
counter describes the next step, and straight on the machine comes to the next
line of the listing.  The same holds at every program counter inside the memory
for the first line of the listing that starts there. -/
theorem listing_describes_steps
    {machine : Machine} (hrunning : machine.running = true) :
    (∀ front line back,
      Listing.lines machine.image.cells.toList = front ++ line :: back →
      machine.pc.toNat = line.offset →
        line.Describes machine
          ((back.head?.map ListingLine.offset).getD 256)) ∧
    (machine.pc.toNat < 256 → ∃ line back,
      Listing.lines (machine.image.cells.toList.drop machine.pc.toNat) =
        line :: back ∧
      line.Describes machine (machine.pc.toNat +
        (back.head?.map ListingLine.offset).getD
          (256 - machine.pc.toNat))) := by
  constructor
  · intro front line back hlines hpc
    have hdescribes := @ListingLine.describes_of_lines machine hrunning 0
      front back line hlines (hpc.trans (Nat.zero_add _).symm)
    rw [Nat.zero_add] at hdescribes
    exact hdescribes
  · intro hlt
    have hbytes := @Image.from_eq_cons machine.image _ hlt
    have hlines := Listing.toList_linesFrom_cons 0
      machine.image.cells[machine.pc.toNat]
      (machine.image.from (machine.pc.toNat + 1))
    rw [← hbytes] at hlines
    refine ⟨_, _, hlines, ?_⟩
    apply ListingLine.describes_of_lines hrunning
      (hlines.trans (List.nil_append _).symm)
    rw [ListingLine.offset_ofBytes, Nat.add_zero]

/-- The second line of a listing, and a machine that has come to it. -/
theorem listing_describes_steps_print :
    (⟨3, [10, 0], some (.print 0)⟩ : ListingLine).Describes
      { Machine.started [1, 0, 5, 10, 0] with pc := 3 } 5 := by
  obtain ⟨hlines, -⟩ := @listing_describes_steps
    { Machine.started [1, 0, 5, 10, 0] with pc := 3 } rfl
  have hbytes : (Image.blank.overlay [1, 0, 5, 10, 0]).cells.toList =
      1 :: 0 :: 5 :: 10 :: 0 :: List.replicate 251 0 :=
    Image.from_overlay_blank (by decide) 0
  have hlisting : Listing.lines
      (Image.blank.overlay [1, 0, 5, 10, 0]).cells.toList =
        [⟨0, [1, 0, 5], some (.load 0 5)⟩] ++
          ⟨3, [10, 0], some (.print 0)⟩ ::
            (Listing.linesFrom 5 (List.replicate 251 0) #[]).toList := by
    rw [hbytes, Listing.lines, Listing.toList_linesFrom_cons]
    exact congrArg (List.cons _)
      (Listing.toList_linesFrom_cons 3 10 (0 :: List.replicate 251 0))
  have hdescribes := hlines _ _ _ hlisting rfl
  have hnext := Listing.offset_head?_linesFrom 5 (List.replicate 251 0)
  rw [List.length_replicate] at hnext
  rw [hnext] at hdescribes
  exact hdescribes

end ByteMachine
