import ByteMachine.Instruction.Encoding
import ByteMachine.Machine.Fetch
import ByteMachine.Proofs.Result
import Mathlib.Data.List.Basic

/-!
# Decoding as one pull of all operands

The decoder pulls operand bytes one at a time from a source that it does not
know.  It is the same to pull all of them first and to build the instruction
afterwards, so that a source is described by what a row of pulls does to it.
Two sources are described here: a stored byte string, and the memory of a
machine at its program counter.
-/

namespace ByteMachine

/-- Pull a number of bytes one behind the other. -/
def pullBytes {m : Type → Type} [Monad m] (next : m UInt8) :
    Nat → m (List UInt8)
  | 0 => pure []
  | n + 1 => do
      let byte ← next
      let rest ← pullBytes next n
      return byte :: rest

namespace Instruction

/-- The instruction with the given operation and operand bytes.  Rows of other
lengths do not occur. -/
def ofOperands : Opcode → List UInt8 → Instruction Address
  | .load, [register, value] => load register value
  | .arithmetic operation, [left, right, destination] =>
      arithmetic operation left right destination
  | .jump, [high, low] => jump (addressOfBytes high low)
  | .jumpIfZero, [register, high, low] =>
      jumpIfZero register (addressOfBytes high low)
  | .push, [register] => push register
  | .pop, [register] => pop register
  | .print, [register] => print register
  | _, _ => halt

/-- The decoder pulls all operand bytes and builds the instruction. -/
theorem read_eq_pullBytes
    {m : Type → Type} [Monad m] [LawfulMonad m] (next : m UInt8)
    (operation : Opcode) :
    read next operation =
      ofOperands operation <$> pullBytes next operation.operandBytes := by
  cases operation <;>
    simp [read, readAddress, pullBytes, ofOperands, Opcode.operandBytes]

theorem opcode_operands_ofOperands
    {operation : Opcode} {bytes : List UInt8}
    (h : bytes.length = operation.operandBytes) :
    (ofOperands operation bytes).opcode = operation ∧
      (ofOperands operation bytes).operands = bytes := by
  cases operation with
  | halt =>
      obtain rfl := List.eq_nil_of_length_eq_zero h
      exact ⟨rfl, rfl⟩
  | push | pop | print =>
      obtain ⟨a, rfl⟩ := List.length_eq_one_iff.mp h
      exact ⟨rfl, rfl⟩
  | load | jump =>
      obtain ⟨a, b, rfl⟩ := List.length_eq_two.mp h
      simp [ofOperands, opcode, operands]
  | arithmetic | jumpIfZero =>
      obtain ⟨a, b, c, rfl⟩ := List.length_eq_three.mp h
      simp [ofOperands, opcode, operands]

theorem encode_ofOperands
    {operation : Opcode} {bytes : List UInt8}
    (h : bytes.length = operation.operandBytes) :
    (ofOperands operation bytes).encode = operation.byte :: bytes := by
  obtain ⟨hopcode, hoperands⟩ := opcode_operands_ofOperands h
  rw [encode, hopcode, hoperands]

theorem ofOperands_operands (instruction : Instruction Address) :
    ofOperands instruction.opcode instruction.operands = instruction := by
  cases instruction <;>
    simp [ofOperands, opcode, operands, addressBytes]

theorem length_operands (instruction : Instruction Address) :
    instruction.operands.length = instruction.opcode.operandBytes := by
  have h := instruction.length_encode
  rw [encode, List.length_cons, size] at h
  omega

end Instruction

/-! ## Running a byte source -/

namespace ByteSource

variable {σ ε : Type} {next : ByteSource σ ε UInt8} {state after : σ}

theorem run_pullBytes_succ_of_error
    {failure : ε} (h : next.run.run state = (.error failure, after))
    (n : Nat) :
    (pullBytes next (n + 1)).run.run state = (.error failure, after) :=
  Result.run_bind_of_error h _

theorem run_pullBytes_succ_of_ok
    {byte : UInt8} (h : next.run.run state = (.ok byte, after)) (n : Nat) :
    (pullBytes next (n + 1)).run.run state =
      (((pullBytes next n).run.run after).1.map (byte :: ·),
        ((pullBytes next n).run.run after).2) := by
  rw [pullBytes, Result.run_bind_of_ok h]
  cases hrest : (pullBytes next n).run.run after with
  | mk result final =>
      cases result with
      | error failure => rw [Result.run_bind_of_error hrest]; rfl
      | ok bytes => rw [Result.run_bind_of_ok hrest]; rfl

end ByteSource

/-! ## Stored byte strings -/

theorem run_pullBytes_supply
    (n : Nat) (rest : List UInt8) (pulls : Nat) :
    (pullBytes Supply.pull n).run.run ⟨rest, pulls⟩ =
      if n ≤ rest.length then
        (.ok (rest.take n), ⟨rest.drop n, pulls + n⟩)
      else
        (.error (), ⟨[], pulls + rest.length + 1⟩) := by
  induction n generalizing rest pulls with
  | zero => rfl
  | succ n ih =>
      cases rest with
      | nil => exact ByteSource.run_pullBytes_succ_of_error rfl n
      | cons byte rest =>
          have hpull : Supply.pull.run.run ⟨byte :: rest, pulls⟩ =
              (.ok byte, ⟨rest, pulls + 1⟩) := rfl
          rw [ByteSource.run_pullBytes_succ_of_ok hpull, ih]
          by_cases hn : n ≤ rest.length
          · simp [hn, Nat.add_assoc, Nat.add_comm 1 n, Except.map]
          · simp [hn, Nat.add_assoc, Nat.add_comm 1, Except.map]

/-- Decoding takes as many bytes as the operation asks for, or fails when they
are not there. -/
theorem decode_eq (first : UInt8) (rest : List UInt8) :
    decode first rest =
      match Opcode.ofByte? first with
      | none => .error (.unknownOpcode first)
      | some operation =>
          if operation.operandBytes ≤ rest.length then
            .ok ⟨Instruction.ofOperands operation
              (rest.take operation.operandBytes), operation.operandBytes⟩
          else
            .error (.truncated (rest.length + 1)) := by
  rw [decode]
  cases hfirst : Opcode.ofByte? first with
  | none => rfl
  | some operation =>
      have hpulls := run_pullBytes_supply operation.operandBytes rest 0
      simp only [Instruction.read_eq_pullBytes]
      by_cases hlength : operation.operandBytes ≤ rest.length
      · rw [if_pos hlength] at hpulls
        rw [Result.run_map_of_ok hpulls, if_pos hlength]
        simp
      · rw [if_neg hlength] at hpulls
        rw [Result.run_map_of_error hpulls, if_neg hlength]
        simp

/-! ## The memory of a machine -/

/-- The bytes of an image from an offset on. -/
def Image.from (image : Image) (offset : Nat) : List UInt8 :=
  image.cells.toList.drop offset

theorem Image.length_from (image : Image) (offset : Nat) :
    (image.from offset).length = 256 - offset := by
  simp [Image.from]

theorem Image.from_eq_cons
    {image : Image} {offset : Nat} (h : offset < 256) :
    image.from offset = image.cells[offset] :: image.from (offset + 1) := by
  rw [Image.from, List.drop_eq_getElem_cons (by simpa using h),
    Vector.getElem_toList]
  rfl

/-- Fresh memory holds the program and then zeros. -/
theorem Image.from_overlay_blank
    {program : List UInt8} (h : program.length ≤ 256) (offset : Nat) :
    (Image.blank.overlay program).from offset =
      (program ++ List.replicate (256 - program.length) 0).drop offset := by
  have hcells : (Image.blank.overlay program).cells.toList =
      program ++ List.replicate (256 - program.length) 0 := by
    apply List.ext_getElem
    · simp [Nat.add_sub_cancel' h]
    · intro n hn hother
      simp only [Image.overlay, Image.blank, Vector.getElem_toList,
        Vector.getElem_ofFn]
      by_cases hprogram : n < program.length
      · simp [hprogram]
      · simp [hprogram, List.getElem_append_right (Nat.not_lt.mp hprogram)]
  rw [Image.from, hcells]

theorem toNat_add_one_of_lt
    {address : Address} (h : address.toNat < 256) :
    (address + 1).toNat = address.toNat + 1 := by
  rw [UInt16.toNat_add, UInt16.toNat_one]
  omega

theorem eq_of_toNat_le_of_not_lt
    {address : Address} (hle : address.toNat ≤ 256)
    (hlt : ¬address.toNat < 256) : address = 256 := by
  apply UInt16.toNat_inj.mp
  change address.toNat = 256
  omega

theorem Machine.run_fetchByte_of_lt
    {image : Image} {pc : Address} (h : pc.toNat < 256) :
    (Machine.fetchByte image).run.run pc =
      (.ok image.cells[pc.toNat], pc + 1) := by
  have hread : image.read? pc = some image.cells[pc.toNat] := by
    simp [Image.read?, h]
  rw [fetchByte, ExceptT.run_mk, StateT.run, hread]

theorem Machine.run_fetchByte_of_ge
    {image : Image} {pc : Address} (h : 256 ≤ pc.toNat) :
    (Machine.fetchByte image).run.run pc =
      (.error (.pcOutOfBounds pc), pc) := by
  have hread : image.read? pc = none := by
    simp [Image.read?, h]
  rw [fetchByte, ExceptT.run_mk, StateT.run, hread]

/-- A row of fetches takes the next bytes of the image, or stops at its end. -/
theorem Machine.run_pullBytes_fetchByte
    (image : Image) (n : Nat) (pc : Address) (hpc : pc.toNat ≤ 256) :
    (pullBytes (Machine.fetchByte image) n).run.run pc =
      if pc.toNat + n ≤ 256 then
        (.ok ((image.from pc.toNat).take n), pc + UInt16.ofNat n)
      else
        (.error (.pcOutOfBounds 256), 256) := by
  induction n generalizing pc with
  | zero =>
      simp only [Nat.add_zero, hpc, ↓reduceIte, List.take_zero]
      rw [show pc + UInt16.ofNat 0 = pc from UInt16.add_zero pc]
      rfl
  | succ n ih =>
      by_cases hlt : pc.toNat < 256
      · have hnext := toNat_add_one_of_lt hlt
        rw [ByteSource.run_pullBytes_succ_of_ok (run_fetchByte_of_lt hlt),
          ih _ (by omega), hnext, Image.from_eq_cons hlt]
        have hsum : pc + 1 + UInt16.ofNat n = pc + UInt16.ofNat (n + 1) := by
          rw [UInt16.ofNat_add, UInt16.add_assoc, UInt16.add_comm 1]
          rfl
        by_cases hn : pc.toNat + 1 + n ≤ 256
        · rw [if_pos hn, if_pos (by omega), hsum]
          rfl
        · rw [if_neg hn, if_neg (by omega)]
          rfl
      · have hend := eq_of_toNat_le_of_not_lt hpc hlt
        rw [ByteSource.run_pullBytes_succ_of_error
          (run_fetchByte_of_ge (by omega)), if_neg (by omega), hend]

/-- Outside the memory nothing is fetched. -/
theorem Machine.fetch_of_ge
    {machine : Machine} (h : 256 ≤ machine.pc.toNat) :
    machine.fetch = (.error (.pcOutOfBounds machine.pc), machine.pc) := by
  rw [fetch, fetchInstruction, Result.run_bind_of_ok (Result.run_get _),
    Result.run_bind_of_error (run_fetchByte_of_ge h)]

/-- What a machine fetches is decided by the bytes at its program counter, as
for a stored byte string; where those end too early, the program counter stops
at the end of the memory. -/
theorem Machine.fetch_eq
    {machine : Machine} (hpc : machine.pc.toNat ≤ 256) :
    machine.fetch =
      match machine.image.from machine.pc.toNat with
      | [] => (.error (.pcOutOfBounds 256), 256)
      | first :: rest =>
          match Opcode.ofByte? first with
          | none => (.error (.illegalOpcode first machine.pc), machine.pc + 1)
          | some operation =>
              if operation.operandBytes ≤ rest.length then
                (.ok (Instruction.ofOperands operation
                  (rest.take operation.operandBytes)),
                  machine.pc + 1 + UInt16.ofNat operation.operandBytes)
              else
                (.error (.pcOutOfBounds 256), 256) := by
  by_cases hlt : machine.pc.toNat < 256
  · rw [fetch, fetchInstruction, Result.run_bind_of_ok (Result.run_get _),
      Result.run_bind_of_ok (run_fetchByte_of_lt hlt),
      Image.from_eq_cons hlt]
    dsimp only
    cases hfirst : Opcode.ofByte? machine.image.cells[machine.pc.toNat] with
    | none => rfl
    | some operation =>
        have hnext := toNat_add_one_of_lt hlt
        have hpulls := run_pullBytes_fetchByte machine.image
          operation.operandBytes (machine.pc + 1) (by omega)
        dsimp only
        rw [Instruction.read_eq_pullBytes, Image.length_from]
        rw [hnext] at hpulls
        by_cases hlength : machine.pc.toNat + 1 + operation.operandBytes ≤ 256
        · rw [if_pos hlength] at hpulls
          rw [Result.run_map_of_ok hpulls, if_pos (by omega)]
        · rw [if_neg hlength] at hpulls
          rw [Result.run_map_of_error hpulls, if_neg (by omega)]
  · have hend := eq_of_toNat_le_of_not_lt hpc hlt
    have hnil : machine.image.from machine.pc.toNat = [] := by
      apply List.eq_nil_of_length_eq_zero
      rw [Image.length_from]
      omega
    rw [fetch_of_ge (Nat.not_lt.mp hlt), hnil, hend]

/-- An instruction that is encoded at the program counter is fetched. -/
theorem Machine.fetch_of_encode_prefix
    {machine : Machine} {instruction : Instruction Address}
    (hpc : machine.pc.toNat ≤ 256)
    (h : instruction.encode <+: machine.image.from machine.pc.toNat) :
    machine.fetch =
      (.ok instruction, machine.pc + UInt16.ofNat instruction.size) := by
  obtain ⟨more, hmore⟩ := h
  rw [fetch_eq hpc, ← hmore, Instruction.encode, List.cons_append]
  have hlength := instruction.length_operands
  have hsum : machine.pc + 1 + UInt16.ofNat instruction.opcode.operandBytes =
      machine.pc + UInt16.ofNat instruction.size := by
    rw [Instruction.size, UInt16.ofNat_add, UInt16.add_assoc]
    rfl
  simp only [Opcode.ofByte?_byte, List.length_append]
  rw [if_pos (by omega), ← hlength, List.take_left,
    Instruction.ofOperands_operands, hlength, hsum]

/-- The outcomes of fetching: an instruction, a byte that names no operation, or
the end of the memory. -/
theorem Machine.fetch_cases
    {machine : Machine} (hpc : machine.pc.toNat ≤ 256) :
    (∃ instruction : Instruction Address,
      instruction.encode <+: machine.image.from machine.pc.toNat ∧
      machine.fetch =
        (.ok instruction, machine.pc + UInt16.ofNat instruction.size)) ∨
    (∃ byte rest, machine.image.from machine.pc.toNat = byte :: rest ∧
      Opcode.ofByte? byte = none ∧
      machine.fetch =
        (.error (.illegalOpcode byte machine.pc), machine.pc + 1)) ∨
    ((machine.image.from machine.pc.toNat = [] ∨
      ∃ operation rest,
        machine.image.from machine.pc.toNat = Opcode.byte operation :: rest ∧
        rest.length < operation.operandBytes) ∧
      machine.fetch = (.error (.pcOutOfBounds 256), 256)) := by
  have hfetch := fetch_eq hpc
  cases hbytes : machine.image.from machine.pc.toNat with
  | nil =>
      simp only [hbytes] at hfetch
      exact Or.inr (Or.inr ⟨Or.inl rfl, hfetch⟩)
  | cons first rest =>
      simp only [hbytes] at hfetch
      cases hfirst : Opcode.ofByte? first with
      | none =>
          simp only [hfirst] at hfetch
          exact Or.inr (Or.inl ⟨first, rest, rfl, hfirst, hfetch⟩)
      | some operation =>
          simp only [hfirst] at hfetch
          have hbyte := Opcode.byte_of_ofByte? hfirst
          by_cases hlength : operation.operandBytes ≤ rest.length
          · left
            have htake :
                (rest.take operation.operandBytes).length =
                  operation.operandBytes := by
              rw [List.length_take]
              omega
            have hencode := Instruction.encode_ofOperands htake
            have hfront :
                (Instruction.ofOperands operation
                  (rest.take operation.operandBytes)).encode <+:
                  machine.image.from machine.pc.toNat := by
              rw [hencode, hbytes, hbyte]
              exact List.cons_prefix_cons.mpr ⟨rfl, List.take_prefix _ _⟩
            exact ⟨_, hbytes ▸ hfront, fetch_of_encode_prefix hpc hfront⟩
          · right; right
            rw [if_neg hlength] at hfetch
            exact ⟨Or.inr ⟨operation, rest, by rw [hbyte], by omega⟩, hfetch⟩

/-- A fetch moves the program counter by the size of the instruction, or up to
some place in front of it, and never past the end of the memory. -/
theorem Machine.toNat_fetch_le
    {machine : Machine} (hpc : machine.pc.toNat ≤ 256) :
    machine.fetch.2.toNat ≤ 256 ∧
      ∀ instruction, machine.fetch.1 = .ok instruction →
        machine.fetch.2.toNat = machine.pc.toNat + instruction.size := by
  rcases fetch_cases hpc with ⟨instruction, hencode, hfetch⟩ |
    ⟨byte, rest, hbytes, -, hfetch⟩ | ⟨-, hfetch⟩
  · have hlength := hencode.length_le
    rw [Instruction.length_encode, Image.length_from] at hlength
    have hsum : (machine.pc + UInt16.ofNat instruction.size).toNat =
        machine.pc.toNat + instruction.size := by
      rw [UInt16.toNat_add, UInt16.toNat_ofNat']
      omega
    rw [hfetch]
    refine ⟨?_, ?_⟩
    · change (machine.pc + UInt16.ofNat instruction.size).toNat ≤ 256
      omega
    · intro other hother
      obtain rfl := Except.ok.inj hother
      exact hsum
  · have hlength := congrArg List.length hbytes
    rw [Image.length_from, List.length_cons] at hlength
    rw [hfetch]
    refine ⟨?_, by simp⟩
    change (machine.pc + 1).toNat ≤ 256
    rw [toNat_add_one_of_lt (by omega)]
    omega
  · rw [hfetch]
    exact ⟨by decide, by simp⟩

/-- What was fetched stands at the program counter, and the fetch moved past
it. -/
theorem Machine.encode_prefix_of_fetch
    {machine : Machine} {instruction : Instruction Address} {next : Address}
    (hfetch : machine.fetch = (.ok instruction, next)) :
    instruction.encode <+: machine.image.from machine.pc.toNat ∧
      next.toNat = machine.pc.toNat + instruction.size := by
  have hpc : machine.pc.toNat ≤ 256 := by
    by_contra hlarge
    have hother := @fetch_of_ge machine (by omega)
    cases (Prod.mk.inj (hfetch.symm.trans hother)).1
  have hmoved := (toNat_fetch_le hpc).2 instruction
  rw [hfetch] at hmoved
  refine ⟨?_, hmoved rfl⟩
  rcases fetch_cases hpc with ⟨other, hencode, hother⟩ |
    ⟨byte, rest, -, -, hother⟩ | ⟨-, hother⟩
  · have hsame := (Prod.mk.inj (hfetch.symm.trans hother)).1
    obtain rfl := Except.ok.inj hsame
    exact hencode
  · cases (Prod.mk.inj (hfetch.symm.trans hother)).1
  · cases (Prod.mk.inj (hfetch.symm.trans hother)).1

end ByteMachine
