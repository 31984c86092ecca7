import ByteMachine.Proofs.Stepping

/-!
# The instruction table

What an instruction does, said without the order in which it is computed.
`Instruction.firstFault?` goes through the conditions under which an
instruction faults, the first one that applies first; `Instruction.Row` is the
row of the table for the instruction that meets none of them, on numbers and on
cells.  A step of a machine that stands at an instruction follows both.
-/

namespace ByteMachine

/-! ## Numbers and cells -/

namespace Arithmetic

/-- The arithmetic of bytes on numbers: modulo 256, and a quotient loses its
fraction. -/
def onNumbers (left right : Int) : Arithmetic → Int
  | add => (left + right) % 256
  | sub => (left - right) % 256
  | mul => (left * right) % 256
  | div => left.tdiv right

theorem toNat_eq_onNumbers
    {operation : Arithmetic} {left right value : UInt8}
    (h : operation.result? left right = some value) :
    (value.toNat : Int) = operation.onNumbers left.toNat right.toNat := by
  have hleft := left.toNat_lt
  have hright := right.toNat_lt
  cases operation with
  | add =>
      obtain rfl := Option.some.inj h
      rw [onNumbers, UInt8.toNat_add]
      omega
  | sub =>
      obtain rfl := Option.some.inj h
      rw [onNumbers, UInt8.toNat_sub]
      omega
  | mul =>
      obtain rfl := Option.some.inj h
      rw [onNumbers, UInt8.toNat_mul, Int.natCast_emod, Int.natCast_mul]
      rfl
  | div =>
      rw [Arithmetic.result?] at h
      split at h
      · cases h
      · obtain rfl := Option.some.inj h
        rw [onNumbers, UInt8.toNat_div]
        rfl

theorem eq_none_iff_zeroDivision
    {operation : Arithmetic} {left right : UInt8} :
    operation.result? left right = none ↔ operation = .div ∧ right = 0 := by
  cases operation <;> simp [Arithmetic.result?]

end Arithmetic

/-- A cell holds a new value, and every other cell what it held before. -/
def Rewrites {n : Nat} (before after : Vector UInt8 n) (i : Nat)
    (value : UInt8) : Prop :=
  after[i]? = some value ∧ ∀ j, j ≠ i → after[j]? = before[j]?

theorem rewrites_set
    {n : Nat} (cells : Vector UInt8 n) {i : Nat} (h : i < n) (value : UInt8) :
    Rewrites cells (cells.set i value) i value := by
  constructor
  · exact Vector.getElem?_set_self h
  · intro j hj
    exact Vector.getElem?_set_ne h hj.symm

namespace RegisterBank

/-- The content of the register with a given number, if there is one. -/
def content? (bank : RegisterBank) (register : UInt8) : Option UInt8 :=
  bank.cells[register.toNat]?

theorem index_of_lt {r : UInt8} (h : r.toNat < 8) :
    index r = .ok ⟨r.toNat, h⟩ :=
  dif_pos h

theorem index_of_ge {r : UInt8} (h : 8 ≤ r.toNat) :
    index r = .error (.invalidRegister r) :=
  dif_neg (Nat.not_lt.mpr h)

theorem read_of_ge (bank : RegisterBank) {r : UInt8} (h : 8 ≤ r.toNat) :
    bank.read r = .error (.invalidRegister r) := by
  rw [read, index_of_ge h, Result.error_bind]

theorem exists_content
    (bank : RegisterBank) {r : UInt8} (h : r.toNat < 8) :
    ∃ value, bank.content? r = some value ∧ bank.read r = .ok value := by
  refine ⟨bank.cells[r.toNat], ?_, ?_⟩
  · exact Vector.getElem?_eq_getElem h
  · rw [read, index_of_lt h]
    rfl

end RegisterBank

namespace Instruction

/-! ## The conditions -/

/-- A register operand that names no register, the first in the encoding. -/
def invalidRegister? (instruction : Instruction Address) : Option Fault :=
  instruction.foreignRegister?.map .invalidRegister

/-- A division by a register that holds zero. -/
def zeroDivisor? (bank : RegisterBank) :
    Instruction Address → Option Fault
  | arithmetic .div _ right _ =>
      if bank.content? right = some 0 then some (.divisionByZero right)
      else none
  | _ => none

/-- A jump target outside the memory, whether or not the jump is taken. -/
def farTarget? (instruction : Instruction Address) : Option Fault :=
  (instruction.target?.filter fun target => 256 ≤ target.toNat).map
    .addressOutOfBounds

/-- A push without room, or a pop without a value. -/
def stackFault? (stack : OperandStack) : Instruction Address → Option Fault
  | push _ =>
      if stack.sp.val = 0 then some (.stackUnderflow 0) else none
  | pop _ =>
      if 255 ≤ stack.sp.val then some (.stackOverflow stack.pointer)
      else none
  | _ => none

/-- A printed line that the sink refuses. -/
def refusedLine? {σ : Type} [Sink σ] (bank : RegisterBank) (sink : σ) :
    Instruction Address → Option Fault
  | print register =>
      (bank.content? register).bind fun value =>
        (Sink.write sink (printedLine value)).2.map .output
  | _ => none

/-- The first condition that an instruction meets before it prints. -/
def firstCheck? (bank : RegisterBank) (stack : OperandStack)
    (instruction : Instruction Address) : Option Fault :=
  instruction.invalidRegister? <|> instruction.zeroDivisor? bank <|>
    instruction.farTarget? <|> instruction.stackFault? stack

/-- The first condition that an instruction meets on a machine. -/
def firstFault? {σ : Type} [Sink σ] (machine : Machine) (sink : σ)
    (instruction : Instruction Address) : Option Fault :=
  instruction.firstCheck? machine.registers machine.stack <|>
    instruction.refusedLine? machine.registers sink

/-! ## The rows -/

/-- The row of the table for an instruction with the address `next` behind it:
what it leaves in registers and on the stack, where the machine goes on, and
what is printed. -/
structure Row (bank : RegisterBank) (stack : OperandStack) (next : Address)
    (instruction : Instruction Address) (effect : Effect) : Prop where
  registers : match instruction with
    | .load register value =>
        Rewrites bank.cells effect.registers.cells register.toNat value
    | .arithmetic operation left right destination =>
        ∃ a b value, bank.content? left = some a ∧
          bank.content? right = some b ∧
          (value.toNat : Int) = operation.onNumbers a.toNat b.toNat ∧
          Rewrites bank.cells effect.registers.cells destination.toNat value
    | .pop register =>
        ∃ value, stack.cells[stack.sp.val + 1]? = some value ∧
          Rewrites bank.cells effect.registers.cells register.toNat value
    | _ => effect.registers = bank
  stack : match instruction with
    | .push register =>
        ∃ value, bank.content? register = some value ∧
          Rewrites stack.cells effect.stack.cells stack.sp.val value ∧
          effect.stack.sp.val + 1 = stack.sp.val
    | .pop _ =>
        effect.stack.cells = stack.cells ∧
          effect.stack.sp.val = stack.sp.val + 1
    | _ => effect.stack = stack
  pc : match instruction with
    | .jump target => effect.pc = target
    | .jumpIfZero register target =>
        effect.pc = if bank.content? register = some 0 then target else next
    | _ => effect.pc = next
  printed : match instruction with
    | .print register =>
        ∃ value, bank.content? register = some value ∧
          effect.printed = some (register, value)
    | _ => effect.printed = none
  halts : effect.halts = true ↔ instruction = .halt

variable {bank : RegisterBank} {stack : OperandStack} {next : Address}
  {instruction : Instruction Address} {effect : Effect} {fault : Fault}

theorem Row.one_register (h : Row bank stack next instruction effect) :
    ∃ i : Nat, ∀ j, j ≠ i → effect.registers.cells[j]? = bank.cells[j]? := by
  have hregisters := h.registers
  cases instruction with
  | load register value => exact ⟨_, hregisters.2⟩
  | arithmetic operation left right destination =>
      obtain ⟨a, b, value, -, -, -, hrewrites⟩ := hregisters
      exact ⟨_, hrewrites.2⟩
  | pop register =>
      obtain ⟨value, -, hrewrites⟩ := hregisters
      exact ⟨_, hrewrites.2⟩
  | halt | jump | jumpIfZero | push | print =>
      have hsame : effect.registers = bank := hregisters
      exact ⟨0, fun j _ => by rw [hsame]⟩

theorem Row.one_cell (h : Row bank stack next instruction effect) :
    ∃ i : Nat, ∀ j, j ≠ i → effect.stack.cells[j]? = stack.cells[j]? := by
  have hstack := h.stack
  cases instruction with
  | push register =>
      obtain ⟨value, -, hrewrites, -⟩ := hstack
      exact ⟨_, hrewrites.2⟩
  | pop register => exact ⟨0, fun j _ => by rw [hstack.1]⟩
  | halt | load | arithmetic | jump | jumpIfZero | print =>
      have hsame : effect.stack = stack := hstack
      exact ⟨0, fun j _ => by rw [hsame]⟩

theorem Row.eq_print
    (h : Row bank stack next instruction effect) {register value : UInt8}
    (hprinted : effect.printed = some (register, value)) :
    instruction = .print register ∧ bank.content? register = some value := by
  have hrow := h.printed
  cases instruction with
  | print other =>
      obtain ⟨content, hcontent, hsome⟩ := hrow
      obtain ⟨rfl, rfl⟩ := Prod.mk.inj (Option.some.inj
        (hprinted.symm.trans hsome))
      exact ⟨rfl, hcontent⟩
  | halt | load | arithmetic | jump | jumpIfZero | push | pop =>
      cases hprinted.symm.trans hrow

theorem Row.ne_print
    (h : Row bank stack next instruction effect)
    (hprinted : effect.printed = none) (register : UInt8) :
    instruction ≠ .print register := by
  rintro rfl
  obtain ⟨value, -, hsome⟩ := h.printed
  cases hprinted.symm.trans hsome

/-! ## Effects meet the conditions in order -/

theorem invalidRegister?_eq_none_iff :
    instruction.invalidRegister? = none ↔
      ∀ r ∈ instruction.registers, r.toNat < 8 := by
  simp [invalidRegister?, foreignRegister?]

/-- The first foreign register among three. -/
theorem effect_arithmetic_of_foreign
    {operation : Arithmetic} {left right destination r : UInt8}
    (h : [left, right, destination].find? (fun r => 8 ≤ r.toNat) = some r) :
    (arithmetic operation left right destination).effect bank stack next =
      .error (.invalidRegister r) := by
  by_cases hleft : 8 ≤ left.toNat
  · obtain rfl : left = r := by simpa [hleft] using h
    rw [effect, bank.read_of_ge hleft, Result.error_bind]
  obtain ⟨a, -, ha⟩ := bank.exists_content (Nat.not_le.mp hleft)
  by_cases hright : 8 ≤ right.toNat
  · obtain rfl : right = r := by simpa [hleft, hright] using h
    rw [effect, ha, Result.ok_bind, bank.read_of_ge hright,
      Result.error_bind]
  obtain ⟨b, -, hb⟩ := bank.exists_content (Nat.not_le.mp hright)
  obtain ⟨hdestination, rfl⟩ : 8 ≤ destination.toNat ∧ destination = r := by
    simpa [hleft, hright] using h
  rw [effect, ha, Result.ok_bind, hb, Result.ok_bind,
    RegisterBank.index_of_ge hdestination, Result.error_bind]

theorem effect_of_invalidRegister?
    (h : instruction.invalidRegister? = some fault) :
    instruction.effect bank stack next = .error fault := by
  obtain ⟨r, hfind, rfl⟩ := Option.map_eq_some_iff.mp h
  have hr : 8 ≤ r.toNat := by simpa using List.find?_some hfind
  have hmem := List.mem_of_find?_eq_some hfind
  cases instruction with
  | halt | jump => cases hmem
  | arithmetic => exact effect_arithmetic_of_foreign hfind
  | load | pop =>
      obtain rfl := List.mem_singleton.mp hmem
      rw [effect, RegisterBank.index_of_ge hr, Result.error_bind]
  | jumpIfZero | push | print =>
      obtain rfl := List.mem_singleton.mp hmem
      rw [effect, bank.read_of_ge hr, Result.error_bind]

section NativeRegisters

variable (hnative : instruction.invalidRegister? = none)

include hnative

theorem effect_of_zeroDivisor?
    (h : instruction.zeroDivisor? bank = some fault) :
    instruction.effect bank stack next = .error fault := by
  unfold zeroDivisor? at h
  split at h
  · next left right destination =>
      split at h
      · next hzero =>
          obtain rfl := Option.some.inj h
          rw [invalidRegister?_eq_none_iff] at hnative
          simp only [registers, List.forall_mem_cons] at hnative
          obtain ⟨hleft, hright, hdestination, -⟩ := hnative
          obtain ⟨a, -, ha⟩ := bank.exists_content hleft
          obtain ⟨b, hcontent, hb⟩ := bank.exists_content hright
          obtain rfl := Option.some.inj (hcontent.symm.trans hzero)
          rw [effect, ha, Result.ok_bind, hb, Result.ok_bind,
            RegisterBank.index_of_lt hdestination, Result.ok_bind]
          rfl
      · cases h
  · cases h

theorem effect_of_farTarget?
    (h : instruction.farTarget? = some fault) :
    instruction.effect bank stack next = .error fault := by
  obtain ⟨target, hfilter, rfl⟩ := Option.map_eq_some_iff.mp h
  obtain ⟨htarget, hfar⟩ := Option.filter_eq_some_iff.mp hfilter
  have hjump : jumpTarget target = .error (.addressOutOfBounds target) :=
    if_neg (Nat.not_lt.mpr (of_decide_eq_true hfar))
  rw [invalidRegister?_eq_none_iff] at hnative
  cases instruction with
  | jump =>
      obtain rfl := Option.some.inj htarget
      rw [effect, hjump, Result.error_bind]
  | jumpIfZero register =>
      obtain rfl := Option.some.inj htarget
      obtain ⟨value, -, hvalue⟩ :=
        bank.exists_content (hnative register (by simp [registers]))
      rw [effect, hvalue, Result.ok_bind, hjump, Result.error_bind]
  | halt | load | arithmetic | push | pop | print => cases htarget

theorem effect_of_stackFault?
    (h : instruction.stackFault? stack = some fault) :
    instruction.effect bank stack next = .error fault := by
  rw [invalidRegister?_eq_none_iff] at hnative
  cases instruction with
  | push register =>
      obtain ⟨value, -, hvalue⟩ :=
        bank.exists_content (hnative register (by simp [registers]))
      rw [stackFault?] at h
      split at h
      · next hsp =>
          obtain rfl := Option.some.inj h
          have hpointer : stack.pointer = 0 := by
            rw [OperandStack.pointer, hsp]
            rfl
          have hpush := Change.outcome_of_error
            (OperandStack.run_push_of_zero hsp value)
          rw [effect, hvalue, Result.ok_bind, hpush, Result.error_bind,
            hpointer]
      · cases h
  | pop register =>
      have hindex :=
        RegisterBank.index_of_lt (hnative register (by simp [registers]))
      rw [stackFault?] at h
      split at h
      · next hsp =>
          obtain rfl := Option.some.inj h
          have hpop := Change.outcome_of_error (OperandStack.run_pop_of_ge hsp)
          rw [effect, hindex, Result.ok_bind, hpop, Result.error_bind]
      · cases h
  | halt | load | arithmetic | jump | jumpIfZero | print => cases h

end NativeRegisters

theorem effect_of_firstCheck?
    (h : instruction.firstCheck? bank stack = some fault) :
    instruction.effect bank stack next = .error fault := by
  simp only [firstCheck?, Option.orElse_eq_orElse, Option.orElse_eq_or,
    Option.or_eq_some_iff] at h
  rcases h with hforeign | ⟨hnative, hzero | ⟨-, hfar | ⟨-, hstack⟩⟩⟩
  · exact effect_of_invalidRegister? hforeign
  · exact effect_of_zeroDivisor? hnative hzero
  · exact effect_of_farTarget? hnative hfar
  · exact effect_of_stackFault? hnative hstack

theorem jumpTarget_of_farTarget?
    {target : Address} (h : instruction.farTarget? = none)
    (htarget : instruction.target? = some target) :
    jumpTarget target = .ok target := by
  have hnear : target.toNat < 256 := by
    simpa [farTarget?, htarget] using h
  exact if_pos hnear

/-- An instruction that meets no condition does what its row says. -/
theorem exists_row_of_firstCheck?
    (h : instruction.firstCheck? bank stack = none) (next : Address) :
    ∃ effect, instruction.effect bank stack next = .ok effect ∧
      Row bank stack next instruction effect := by
  simp only [firstCheck?, Option.orElse_eq_orElse, Option.orElse_eq_or,
    Option.or_eq_none_iff, invalidRegister?_eq_none_iff] at h
  obtain ⟨hnative, hzero, hfar, hstack⟩ := h
  cases instruction with
  | halt => exact ⟨_, rfl, rfl, rfl, rfl, rfl, by simp⟩
  | load register value =>
      have hr := hnative register (by simp [registers])
      rw [effect, RegisterBank.index_of_lt hr]
      exact ⟨_, rfl, rewrites_set bank.cells hr value, rfl, rfl, rfl, by simp⟩
  | arithmetic operation left right destination =>
      simp only [registers, List.forall_mem_cons] at hnative
      obtain ⟨hleft, hright, hdestination, -⟩ := hnative
      obtain ⟨a, hcontentA, ha⟩ := bank.exists_content hleft
      obtain ⟨b, hcontentB, hb⟩ := bank.exists_content hright
      rw [effect, ha, Result.ok_bind, hb, Result.ok_bind,
        RegisterBank.index_of_lt hdestination, Result.ok_bind]
      cases hvalue : operation.result? a b with
      | none =>
          obtain ⟨rfl, rfl⟩ := Arithmetic.eq_none_iff_zeroDivision.mp hvalue
          simp [zeroDivisor?, hcontentB] at hzero
      | some value =>
          have hnumber := Arithmetic.toNat_eq_onNumbers hvalue
          have hrewrites := rewrites_set bank.cells hdestination value
          exact ⟨_, rfl, ⟨a, b, value, hcontentA, hcontentB, hnumber,
            hrewrites⟩, rfl, rfl, rfl, by simp⟩
  | jump target =>
      rw [effect, jumpTarget_of_farTarget? hfar rfl]
      exact ⟨_, rfl, rfl, rfl, rfl, rfl, by simp⟩
  | jumpIfZero register target =>
      obtain ⟨value, hcontent, hvalue⟩ :=
        bank.exists_content (hnative register (by simp [registers]))
      rw [effect, hvalue, Result.ok_bind, jumpTarget_of_farTarget? hfar rfl]
      exact ⟨_, rfl, rfl, rfl, by simp [hcontent], rfl, by simp⟩
  | push register =>
      obtain ⟨value, hcontent, hvalue⟩ :=
        bank.exists_content (hnative register (by simp [registers]))
      have hsp : stack.sp.val ≠ 0 := by simpa [stackFault?] using hstack
      have hpos := Nat.pos_of_ne_zero hsp
      have hpush := Change.outcome_eq_ok_iff.mpr
        (OperandStack.run_push_of_pos hpos value)
      rw [effect, hvalue, Result.ok_bind, hpush, Result.ok_bind]
      have hrewrites := rewrites_set stack.cells stack.sp.isLt value
      have hpointer := Nat.sub_add_cancel hpos
      exact ⟨_, rfl, rfl, ⟨value, hcontent, hrewrites, hpointer⟩, rfl, rfl,
        by simp⟩
  | pop register =>
      have hr := hnative register (by simp [registers])
      have hsp : stack.sp.val < 255 := by simpa [stackFault?] using hstack
      have hpop := Change.outcome_eq_ok_iff.mpr (OperandStack.run_pop_of_lt hsp)
      rw [effect, RegisterBank.index_of_lt hr, Result.ok_bind, hpop,
        Result.ok_bind]
      have hlt : stack.sp.val + 1 < OperandStack.size :=
        Nat.add_lt_of_lt_sub hsp
      have hvalue : stack.cells[stack.sp.val + 1]? =
          some stack.cells[stack.sp.val + 1] := Vector.getElem?_eq_getElem hlt
      have hrewrites :=
        rewrites_set bank.cells hr stack.cells[stack.sp.val + 1]
      exact ⟨_, rfl, ⟨_, hvalue, hrewrites⟩, ⟨rfl, rfl⟩, rfl, rfl, by simp⟩
  | print register =>
      obtain ⟨value, hcontent, hvalue⟩ :=
        bank.exists_content (hnative register (by simp [registers]))
      rw [effect, hvalue]
      exact ⟨_, rfl, rfl, rfl, rfl, ⟨value, hcontent, rfl⟩, by simp⟩

theorem row_of_effect
    (h : instruction.effect bank stack next = .ok effect) :
    Row bank stack next instruction effect := by
  cases hcheck : instruction.firstCheck? bank stack with
  | some fault =>
      have herror : instruction.effect bank stack next = .error fault :=
        effect_of_firstCheck? hcheck
      cases h.symm.trans herror
  | none =>
      obtain ⟨other, hother, hrow⟩ := exists_row_of_firstCheck? hcheck next
      obtain rfl := Except.ok.inj (h.symm.trans hother)
      exact hrow

end Instruction

/-! ## Steps follow the table -/

namespace Machine

variable {σ : Type} [Sink σ]

/-- What a step leaves behind when its instruction is completed. -/
structure Performs (machine : Machine) (sink : σ)
    (instruction : Instruction Address) (step : Step σ) : Prop where
  state : ∃ next effect,
    next.toNat = machine.pc.toNat + instruction.size ∧
    Instruction.Row machine.registers machine.stack next instruction effect ∧
    step.machine =
      { machine with
        registers := effect.registers
        stack := effect.stack
        pc := effect.pc
        running := !effect.halts
        steps := machine.steps + 1 }
  output : match instruction with
    | .print register =>
        ∃ value, machine.registers.content? register = some value ∧
          step.sink = (Sink.write sink (printedLine value)).1
    | _ => step.sink = sink
  result : step.result =
    .ok (if instruction = .halt then .halted else .running)

/-- A step follows the table for an instruction: it faults as the conditions
say, and without a fault it does what the row says. -/
structure Follows (machine : Machine) (sink : σ)
    (instruction : Instruction Address) (step : Step σ) : Prop where
  faults : ∀ fault, step.result = .error fault ↔
    instruction.firstFault? machine sink = some fault
  performs : instruction.firstFault? machine sink = none →
    machine.Performs sink instruction step

variable {machine : Machine} {instruction : Instruction Address}

/-- An instruction that is encoded at the program counter is fetched from
inside the memory. -/
theorem fetch_of_at
    (hat : instruction.encode <+: machine.image.from machine.pc.toNat) :
    machine.pc.toNat + instruction.size ≤ 256 ∧
      ∃ next, machine.fetch = (.ok instruction, next) ∧
        next.toNat = machine.pc.toNat + instruction.size := by
  have hlength := hat.length_le
  rw [Instruction.length_encode, Image.length_from] at hlength
  have hsize : 0 < instruction.size := Nat.add_pos_left Nat.one_pos _
  have hpc : machine.pc.toNat ≤ 256 := by omega
  have hfetch := fetch_of_encode_prefix hpc hat
  have hmoved := (toNat_fetch_le hpc).2 instruction
  rw [hfetch] at hmoved
  exact ⟨by omega, _, hfetch, hmoved rfl⟩

omit [Sink σ] in
theorem result_complete
    {effect : Effect} {sink : σ} {before : List Event}
    (hhalts : effect.halts = true ↔ instruction = .halt) :
    (machine.complete effect sink before).result =
      .ok (if instruction = .halt then .halted else .running) := by
  simp [complete, Effect.status, hhalts]

section Fetched

variable {next : Address} {effect : Effect} (hrunning : machine.running = true)
  (hfetch : machine.fetch = (.ok instruction, next))
  (hnext : next.toNat = machine.pc.toNat + instruction.size)

include hrunning hfetch

theorem follows_of_check
    {fault : Fault}
    (hcheck : instruction.firstCheck? machine.registers machine.stack =
      some fault) (sink : σ) :
    machine.Follows sink instruction (machine.step sink) := by
  have hfirst : instruction.firstFault? machine sink = some fault := by
    simp [Instruction.firstFault?, hcheck]
  rw [step_of_unfit hrunning hfetch (Instruction.effect_of_firstCheck? hcheck)]
  constructor
  · intro other
    simp [fail, hfirst]
  · intro hnone
    cases hfirst.symm.trans hnone

include hnext

theorem follows_of_silent
    (hcheck : instruction.firstCheck? machine.registers machine.stack = none)
    (heffect : instruction.effect machine.registers machine.stack next =
      .ok effect)
    (hprinted : effect.printed = none) (sink : σ) :
    machine.Follows sink instruction (machine.step sink) := by
  have hrow := Instruction.row_of_effect heffect
  have hother := hrow.ne_print hprinted
  have hnone : instruction.firstFault? machine sink = none := by
    rw [Instruction.firstFault?, hcheck]
    cases instruction with
    | print register => exact absurd rfl (hother register)
    | _ => rfl
  rw [step_of_silent hrunning hfetch heffect hprinted]
  constructor
  · intro fault
    simp [complete, hnone]
  · intro _
    refine ⟨⟨next, effect, hnext, hrow, rfl⟩, ?_, result_complete hrow.halts⟩
    cases instruction with
    | print register => exact absurd rfl (hother register)
    | _ => rfl

/-- Only a print instruction lets the sink decide. -/
theorem follows_of_printed
    {register value : UInt8}
    (hcheck : instruction.firstCheck? machine.registers machine.stack = none)
    (heffect : instruction.effect machine.registers machine.stack next =
      .ok effect)
    (hprinted : effect.printed = some (register, value)) (sink : σ) :
    machine.Follows sink instruction (machine.step sink) := by
  have hrow := Instruction.row_of_effect heffect
  obtain ⟨rfl, hcontent⟩ := hrow.eq_print hprinted
  obtain ⟨after, refusal, hwrite⟩ : ∃ after refusal,
      Sink.write sink (printedLine value) = (after, refusal) := ⟨_, _, rfl⟩
  have hfirst : (Instruction.print register).firstFault? machine sink =
      refusal.map .output := by
    simp [Instruction.firstFault?, Instruction.refusedLine?, hcheck, hcontent,
      hwrite]
  cases refusal with
  | none =>
      rw [step_of_printed hrunning hfetch heffect hprinted hwrite]
      constructor
      · intro fault
        simp [complete, hfirst]
      · intro _
        exact ⟨⟨next, effect, hnext, hrow, rfl⟩,
          ⟨value, hcontent, by rw [hwrite]; rfl⟩, result_complete hrow.halts⟩
  | some failure =>
      rw [step_of_unprinted hrunning hfetch heffect hprinted hwrite]
      constructor
      · intro fault
        simp [fail, hfirst]
      · intro hnone
        cases hfirst.symm.trans hnone

end Fetched

/-- A machine that stands at an instruction follows the table. -/
theorem follows_of_at
    (hrunning : machine.running = true)
    (hat : instruction.encode <+: machine.image.from machine.pc.toNat)
    (sink : σ) : machine.Follows sink instruction (machine.step sink) := by
  obtain ⟨-, next, hfetch, hnext⟩ := fetch_of_at hat
  cases hcheck :
      instruction.firstCheck? machine.registers machine.stack with
  | some fault => exact follows_of_check hrunning hfetch hcheck sink
  | none =>
      obtain ⟨effect, heffect, -⟩ :=
        Instruction.exists_row_of_firstCheck? hcheck next
      cases hprinted : effect.printed with
      | none =>
          exact follows_of_silent hrunning hfetch hnext hcheck heffect
            hprinted sink
      | some printed =>
          exact follows_of_printed hrunning hfetch hnext hcheck heffect
            hprinted sink

end Machine

/-- A machine at an instruction faults exactly when one of the conditions
applies, and with the fault of the first that does.  Otherwise the step does
what the row of the instruction says and nothing else: at most one register and
at most one cell of the stack change. -/
theorem step_follows_instruction_table
    {σ : Type} [Sink σ] {machine : Machine}
    {instruction : Instruction Address} (hrunning : machine.running = true)
    (hat : instruction.encode <+: machine.image.from machine.pc.toNat)
    (sink : σ) :
    (∀ fault, (machine.step sink).result = .error fault ↔
      instruction.firstFault? machine sink = some fault) ∧
    (instruction.firstFault? machine sink = none →
      machine.Performs sink instruction (machine.step sink) ∧
      (∃ i : Nat, ∀ j, j ≠ i →
        (machine.step sink).machine.registers.cells[j]? =
          machine.registers.cells[j]?) ∧
      ∃ i : Nat, ∀ j, j ≠ i →
        (machine.step sink).machine.stack.cells[j]? =
          machine.stack.cells[j]?) := by
  have hfollows := Machine.follows_of_at hrunning hat sink
  refine ⟨hfollows.faults, ?_⟩
  intro hnone
  have hperforms := hfollows.performs hnone
  obtain ⟨next, effect, -, hrow, hmachine⟩ := hperforms.state
  refine ⟨hperforms, ?_, ?_⟩
  · rw [hmachine]
    exact hrow.one_register
  · rw [hmachine]
    exact hrow.one_cell

/-- A division by zero into a register that does not exist is the fault of the
register, and a subtraction may put its result over an operand. -/
theorem step_follows_instruction_table_division :
    ((Machine.started [5, 0, 1, 9]).step ({} : Tape)).result =
      .error (.invalidRegister 9) ∧
    (Machine.started [3, 0, 1, 0]).Performs ({} : Tape)
      (.arithmetic .sub 0 1 0)
      ((Machine.started [3, 0, 1, 0]).step ({} : Tape)) := by
  have hdivision : (Instruction.arithmetic .div 0 1 9).encode <+:
      (Machine.started [5, 0, 1, 9]).image.from 0 := by
    decide +kernel
  have hsubtraction : (Instruction.arithmetic .sub 0 1 0).encode <+:
      (Machine.started [3, 0, 1, 0]).image.from 0 := by
    decide +kernel
  constructor
  · obtain ⟨hfaults, -⟩ :=
      step_follows_instruction_table rfl hdivision ({} : Tape)
    exact (hfaults _).mpr (by decide +kernel)
  · obtain ⟨-, hperforms⟩ :=
      step_follows_instruction_table rfl hsubtraction ({} : Tape)
    exact (hperforms (by decide +kernel)).1

end ByteMachine
