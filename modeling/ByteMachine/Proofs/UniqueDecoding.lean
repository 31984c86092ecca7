import ByteMachine.Proofs.Reassembly
import Mathlib.Algebra.GroupWithZero.Nat

/-!
# Unique decoding

The byte of an operation fixes how many operand bytes follow it, so that no
encoded instruction is the start of another one and a row of them can be cut
again in one way only.

In the other direction the decoder is described for every source of bytes.  It
knows nothing of the source but the answers to its pulls: `ByteSource.Gives`
says what a source answers, and `ByteSource.recorded` keeps the answers, so
that the pulls a reading makes can be counted.
-/

namespace ByteMachine

/-! ## Sources and their answers -/

namespace ByteSource

variable {σ ε : Type} {next : ByteSource σ ε UInt8} {state after : σ}
  {bytes : List UInt8}

/-- From the first state on, the source gives these bytes one behind the other,
and is then in the last state. -/
inductive Gives (next : ByteSource σ ε UInt8) : σ → List UInt8 → σ → Prop
  | nil (state : σ) : Gives next state [] state
  | cons {state middle after : σ} {byte : UInt8} {bytes : List UInt8}
      (hpull : next.run.run state = (.ok byte, middle))
      (hrest : Gives next middle bytes after) :
      Gives next state (byte :: bytes) after

/-- The source that also keeps the answers to all pulls, in their order. -/
def recorded (next : ByteSource σ ε UInt8) :
    ByteSource (σ × List (Except ε UInt8)) ε UInt8 :=
  ExceptT.mk fun (state, answers) =>
    let pull := next.run.run state
    (pull.1, pull.2, answers ++ [pull.1])

theorem run_recorded
    {answer : Except ε UInt8} (h : next.run.run state = (answer, after))
    (answers : List (Except ε UInt8)) :
    next.recorded.run.run (state, answers) =
      (answer, after, answers ++ [answer]) := by
  change (_, _, _) = _
  rw [h]

theorem Gives.recorded
    (h : Gives next state bytes after) (answers : List (Except ε UInt8)) :
    Gives next.recorded (state, answers) bytes
      (after, answers ++ bytes.map .ok) := by
  induction h generalizing answers with
  | nil state => simpa using Gives.nil (state, answers)
  | @cons _ _ _ byte _ hpull _ ih =>
      have hrest := ih (answers ++ [.ok byte])
      rw [List.append_assoc, List.singleton_append] at hrest
      exact .cons (run_recorded hpull answers) hrest

theorem run_pullBytes_of_gives (h : Gives next state bytes after) :
    (pullBytes next bytes.length).run.run state = (.ok bytes, after) := by
  induction h with
  | nil => rfl
  | cons hpull _ ih =>
      rw [List.length_cons, run_pullBytes_succ_of_ok hpull, ih]
      rfl

/-- A pull that fails is the last one. -/
theorem run_pullBytes_of_failure
    (h : Gives next state bytes after) {failure : ε} {last : σ}
    (hpull : next.run.run after = (.error failure, last)) {n : Nat}
    (hlength : bytes.length < n) :
    (pullBytes next n).run.run state = (.error failure, last) := by
  induction h generalizing n with
  | nil =>
      obtain ⟨n, rfl⟩ := Nat.exists_eq_succ_of_ne_zero (Nat.ne_of_gt hlength)
      exact run_pullBytes_succ_of_error hpull n
  | cons hfirst _ ih =>
      obtain ⟨n, rfl⟩ := Nat.exists_eq_succ_of_ne_zero
        (Nat.ne_of_gt (Nat.zero_lt_of_lt hlength))
      rw [run_pullBytes_succ_of_ok hfirst,
        ih hpull (Nat.lt_of_succ_lt_succ hlength)]
      rfl

/-- A source gives as many bytes as are asked for, or fails before that. -/
theorem exists_gives (next : ByteSource σ ε UInt8) (n : Nat) (state : σ) :
    ∃ bytes after, Gives next state bytes after ∧
      (bytes.length = n ∨
        bytes.length < n ∧
          ∃ failure last, next.run.run after = (.error failure, last)) := by
  induction n generalizing state with
  | zero => exact ⟨[], state, .nil state, .inl rfl⟩
  | succ n ih =>
      obtain ⟨answer, middle, hpull⟩ : ∃ answer middle,
          next.run.run state = (answer, middle) := ⟨_, _, rfl⟩
      cases answer with
      | error failure =>
          exact ⟨[], state, .nil state,
            .inr ⟨Nat.succ_pos n, failure, middle, hpull⟩⟩
      | ok byte =>
          obtain ⟨bytes, after, hgives, hlength⟩ := ih middle
          refine ⟨byte :: bytes, after, .cons hpull hgives, ?_⟩
          rw [List.length_cons, Nat.add_right_cancel_iff,
            Nat.add_lt_add_iff_right]
          exact hlength

end ByteSource

/-! ## Reading from a source -/

namespace Instruction

open ByteSource

variable {σ ε : Type} {next : ByteSource σ ε UInt8} {state after : σ}
  {bytes : List UInt8} {operation : Opcode}

/-- Reading the operands of an operation has this result, makes pulls with
these answers and no others, and leaves the source in the last state. -/
def ReadsTo (next : ByteSource σ ε UInt8) (operation : Opcode) (state : σ)
    (result : Except ε (Instruction Address))
    (answers : List (Except ε UInt8)) (after : σ) : Prop :=
  (read next operation).run.run state = (result, after) ∧
    ∀ earlier, (read next.recorded operation).run.run (state, earlier) =
      (result, after, earlier ++ answers)

theorem run_read_of_gives
    (h : Gives next state bytes after)
    (hlength : bytes.length = operation.operandBytes) :
    (read next operation).run.run state =
      (.ok (ofOperands operation bytes), after) := by
  rw [read_eq_pullBytes, ← hlength]
  exact Result.run_map_of_ok (run_pullBytes_of_gives h) _

theorem run_read_of_failure
    (h : Gives next state bytes after) {failure : ε} {last : σ}
    (hpull : next.run.run after = (.error failure, last))
    (hlength : bytes.length < operation.operandBytes) :
    (read next operation).run.run state = (.error failure, last) := by
  rw [read_eq_pullBytes]
  exact Result.run_map_of_error (run_pullBytes_of_failure h hpull hlength) _

theorem readsTo_of_gives
    (h : Gives next state bytes after)
    (hlength : bytes.length = operation.operandBytes) :
    ReadsTo next operation state (.ok (ofOperands operation bytes))
      (bytes.map .ok) after := by
  refine ⟨run_read_of_gives h hlength, ?_⟩
  intro earlier
  exact run_read_of_gives (h.recorded earlier) hlength

theorem readsTo_of_failure
    (h : Gives next state bytes after) {failure : ε} {last : σ}
    (hpull : next.run.run after = (.error failure, last))
    (hlength : bytes.length < operation.operandBytes) :
    ReadsTo next operation state (.error failure)
      (bytes.map .ok ++ [.error failure]) last := by
  refine ⟨run_read_of_failure h hpull hlength, ?_⟩
  intro earlier
  have hrecorded := run_recorded hpull (earlier ++ bytes.map .ok)
  rw [List.append_assoc] at hrecorded
  exact run_read_of_failure (h.recorded earlier) hrecorded hlength

end Instruction

/-! ## Rows of encoded instructions -/

namespace Listing

/-- The lines of a row of encoded instructions are these instructions, each
where the ones before it end. -/
theorem getElem?_linesFrom_flatMap_encode
    (offset : Nat) (instructions : List (Instruction Address)) (k : Nat) :
    (linesFrom offset (instructions.flatMap Instruction.encode)
        #[]).toList[k]? =
      instructions[k]?.map fun instruction =>
        ⟨offset + ((instructions.take k).map Instruction.size).sum,
          instruction.encode, some instruction⟩ := by
  induction instructions generalizing offset k with
  | nil =>
      rw [List.flatMap_nil, linesFrom]
      rfl
  | cons instruction instructions ih =>
      rw [List.flatMap_cons, toList_linesFrom_encode]
      cases k with
      | zero => rfl
      | succ k =>
          rw [List.getElem?_cons_succ, List.getElem?_cons_succ, ih,
            List.take_succ_cons, List.map_cons, List.sum_cons, Nat.add_assoc]

/-- A row of encoded instructions can be cut in one way only. -/
theorem flatMap_encode_injective :
    Function.Injective (List.flatMap Instruction.encode) := by
  intro instructions others hbytes
  apply List.ext_getElem?
  intro k
  have hline := getElem?_linesFrom_flatMap_encode 0 instructions k
  rw [hbytes, getElem?_linesFrom_flatMap_encode] at hline
  have hshown := congrArg (Option.map ListingLine.instruction) hline
  simp only [Option.map_map] at hshown
  exact (Option.map_injective (fun _ _ => Option.some.inj) hshown).symm

end Listing

/-- The byte format can be read in one way only.  The listing of any row of
encoded instructions shows these instructions and nothing else, each decoded
and at the offset where the ones before it end.  Reading the operands of any
operation from any source pulls bytes in order, as many as the operation asks
for, and the instruction encodes to the byte of the operation and the bytes
pulled; a pull that fails before that is the last one, and its failure is the
result. -/
theorem uniquely_decodable :
    (∀ (instructions : List (Instruction Address)) (k : Nat),
      (Listing.lines (instructions.flatMap Instruction.encode))[k]? =
        instructions[k]?.map fun instruction =>
          ⟨((instructions.take k).map Instruction.size).sum,
            instruction.encode, some instruction⟩) ∧
    (∀ instruction : Instruction Address,
      instruction.encode.length = instruction.size) ∧
    Function.Injective (List.flatMap Instruction.encode) ∧
    ∀ (σ ε : Type) (next : ByteSource σ ε UInt8) (operation : Opcode)
      (state : σ),
      (∀ bytes after, next.Gives state bytes after →
        bytes.length = operation.operandBytes →
        ∃ instruction, Instruction.ReadsTo next operation state
            (.ok instruction) (bytes.map .ok) after ∧
          instruction.encode = operation.byte :: bytes) ∧
      (∀ bytes after failure last, next.Gives state bytes after →
        bytes.length < operation.operandBytes →
        next.run.run after = (.error failure, last) →
        Instruction.ReadsTo next operation state (.error failure)
          (bytes.map .ok ++ [.error failure]) last) ∧
      ∃ bytes after, next.Gives state bytes after ∧
        (bytes.length = operation.operandBytes ∨
          bytes.length < operation.operandBytes ∧
            ∃ failure last,
              next.run.run after = (.error failure, last)) := by
  refine ⟨?_, Instruction.length_encode, Listing.flatMap_encode_injective, ?_⟩
  · intro instructions k
    have hline := Listing.getElem?_linesFrom_flatMap_encode 0 instructions k
    simp only [Nat.zero_add] at hline
    exact hline
  · intro σ ε next operation state
    refine ⟨?_, ?_, ByteSource.exists_gives next operation.operandBytes state⟩
    · intro bytes after hgives hlength
      exact ⟨_, Instruction.readsTo_of_gives hgives hlength,
        Instruction.encode_ofOperands hlength⟩
    · intro bytes after failure last hgives hlength hpull
      exact Instruction.readsTo_of_failure hgives hpull hlength

/-- A stored byte string that ends within the operands of an addition: two
bytes are given, the third pull fails, and there is no fourth. -/
theorem uniquely_decodable_cutShort :
    Instruction.ReadsTo Supply.pull (.arithmetic .add) ⟨[3, 4], 0⟩
      (.error ()) [.ok 3, .ok 4, .error ()] ⟨[], 3⟩ := by
  obtain ⟨-, -, -, hread⟩ := uniquely_decodable
  obtain ⟨-, hfailure, -⟩ :=
    hread Supply Unit Supply.pull (.arithmetic .add) ⟨[3, 4], 0⟩
  exact hfailure [3, 4] _ _ _ (.cons rfl (.cons rfl (.nil _))) (by decide) rfl

end ByteMachine
