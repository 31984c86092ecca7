import ByteMachine.Listing
import ByteMachine.Proofs.Decoding

/-!
# Listings cover their bytes

Each line of a listing takes the bytes of one instruction, or one byte that
names no operation, or an instruction that the end of the string cuts off.
Every line takes at least one byte, so that the walk ends, and the lines
together hold the whole string.
-/

namespace ByteMachine
namespace ListingLine

/-- The three kinds of lines. -/
theorem ofBytes_cases (offset : Nat) (first : UInt8) (rest : List UInt8) :
    (∃ instruction : Instruction Address,
      instruction.encode <+: first :: rest ∧
      ofBytes offset first rest =
        ⟨offset, instruction.encode, some instruction⟩) ∨
    (Opcode.ofByte? first = none ∧
      ofBytes offset first rest = ⟨offset, [first], none⟩) ∨
    (∃ operation, Opcode.ofByte? first = some operation ∧
      rest.length < operation.operandBytes ∧
      ofBytes offset first rest = ⟨offset, first :: rest, none⟩) := by
  have hdecode := decode_eq first rest
  cases hfirst : Opcode.ofByte? first with
  | none =>
      simp only [hfirst] at hdecode
      exact Or.inr (Or.inl ⟨rfl, by rw [ofBytes, hdecode]⟩)
  | some operation =>
      simp only [hfirst] at hdecode
      by_cases hlength : operation.operandBytes ≤ rest.length
      · left
        rw [if_pos hlength] at hdecode
        have htake : (rest.take operation.operandBytes).length =
            operation.operandBytes := by
          rw [List.length_take]
          omega
        have hencode := Instruction.encode_ofOperands htake
        rw [Opcode.byte_of_ofByte? hfirst] at hencode
        refine ⟨Instruction.ofOperands operation
          (rest.take operation.operandBytes), ?_, ?_⟩
        · rw [hencode]
          exact List.cons_prefix_cons.mpr ⟨rfl, List.take_prefix _ _⟩
        · rw [ofBytes, hdecode, hencode]
          simp only [(Instruction.opcode_operands_ofOperands htake).1]
      · right; right
        rw [if_neg hlength] at hdecode
        exact ⟨operation, rfl, by omega, by rw [ofBytes, hdecode]⟩

theorem offset_ofBytes (offset : Nat) (first : UInt8) (rest : List UInt8) :
    (ofBytes offset first rest).offset = offset := by
  rcases ofBytes_cases offset first rest with
    ⟨instruction, -, hline⟩ | ⟨-, hline⟩ | ⟨operation, -, -, hline⟩
  all_goals rw [hline]

/-- A line takes the first bytes, at least one of them. -/
theorem bytes_ofBytes (offset : Nat) (first : UInt8) (rest : List UInt8) :
    (ofBytes offset first rest).bytes <+: first :: rest ∧
      (ofBytes offset first rest).bytes ≠ [] := by
  rcases ofBytes_cases offset first rest with
    ⟨instruction, hfront, hline⟩ | ⟨-, hline⟩ | ⟨operation, -, -, hline⟩
  · rw [hline]
    exact ⟨hfront, List.cons_ne_nil _ _⟩
  · rw [hline]
    exact ⟨List.cons_prefix_cons.mpr ⟨rfl, List.nil_prefix⟩,
      List.cons_ne_nil _ _⟩
  · rw [hline]
    exact ⟨List.prefix_refl _, List.cons_ne_nil _ _⟩

/-- A line that holds at least one byte, and where it shows an instruction the
bytes of that instruction. -/
structure IsTile (line : ListingLine) : Prop where
  ne_nil : line.bytes ≠ []
  encode : ∀ instruction, line.instruction = some instruction →
    line.bytes = instruction.encode

theorem isTile_ofBytes (offset : Nat) (first : UInt8) (rest : List UInt8) :
    (ofBytes offset first rest).IsTile := by
  refine ⟨(bytes_ofBytes offset first rest).2, ?_⟩
  intro instruction hinstruction
  rcases ofBytes_cases offset first rest with
    ⟨other, -, hline⟩ | ⟨-, hline⟩ | ⟨operation, -, -, hline⟩
  · rw [hline] at hinstruction ⊢
    obtain rfl := Option.some.inj hinstruction
    rfl
  · rw [hline] at hinstruction
    cases hinstruction
  · rw [hline] at hinstruction
    cases hinstruction

/-- Behind a line stand the bytes that it did not take. -/
theorem bytes_ofBytes_append
    (offset : Nat) (first : UInt8) (rest : List UInt8) :
    (ofBytes offset first rest).bytes ++
      rest.drop ((ofBytes offset first rest).bytes.length - 1) =
        first :: rest := by
  obtain ⟨hfront, hne⟩ := bytes_ofBytes offset first rest
  obtain ⟨more, hmore⟩ := hfront
  have hdrop := congrArg (List.drop (ofBytes offset first rest).bytes.length)
    hmore
  rw [List.drop_left] at hdrop
  have hpos := List.length_pos_iff.mpr hne
  obtain ⟨n, hn⟩ := Nat.exists_eq_succ_of_ne_zero (Nat.ne_of_gt hpos)
  rw [hn, List.drop_succ_cons] at hdrop
  rw [hn, Nat.succ_sub_one, ← hdrop]
  exact hmore

end ListingLine

namespace Listing

/-- Induction along the lines of a listing. -/
theorem linesFrom_induction
    {p : Nat → List UInt8 → List ListingLine → Prop}
    (hnil : ∀ offset, p offset [] [])
    (hcons : ∀ offset first rest lines,
      p (offset + (ListingLine.ofBytes offset first rest).bytes.length)
        (rest.drop
          ((ListingLine.ofBytes offset first rest).bytes.length - 1)) lines →
      p offset (first :: rest)
        (ListingLine.ofBytes offset first rest :: lines))
    (offset : Nat) (bytes : List UInt8) :
    p offset bytes (linesFrom offset bytes #[]).toList := by
  induction hn : bytes.length using Nat.strongRecOn
    generalizing offset bytes with
  | ind n ih =>
      cases bytes with
      | nil =>
          rw [linesFrom]
          exact hnil offset
      | cons first rest =>
          have hlt : (rest.drop
              ((ListingLine.ofBytes offset first rest).bytes.length - 1)).length
                < n := by
            rw [← hn, List.length_drop, List.length_cons]
            omega
          rw [linesFrom, toList_linesFrom]
          exact hcons offset first rest _ (ih _ hlt _ _ rfl)

/-- The lines of a listing hold its bytes in order. -/
theorem flatMap_bytes_lines (bytes : List UInt8) :
    (lines bytes).flatMap ListingLine.bytes = bytes := by
  refine linesFrom_induction
    (p := fun _ bytes lines => lines.flatMap ListingLine.bytes = bytes)
    ?_ ?_ 0 bytes
  · intro offset
    rfl
  · intro offset first rest lines ih
    rw [List.flatMap_cons, ih, ListingLine.bytes_ofBytes_append]

/-- Every line of a listing is a tile. -/
theorem isTile_of_mem_lines (bytes : List UInt8) :
    ∀ line ∈ lines bytes, line.IsTile := by
  refine linesFrom_induction
    (p := fun _ _ lines => ∀ line ∈ lines, ListingLine.IsTile line)
    ?_ ?_ 0 bytes
  · simp
  · intro offset first rest lines ih
    exact List.forall_mem_cons.mpr
      ⟨ListingLine.isTile_ofBytes offset first rest, ih⟩

/-! ## Lines in the middle -/

theorem toList_linesFrom_cons
    (offset : Nat) (first : UInt8) (rest : List UInt8) :
    (linesFrom offset (first :: rest) #[]).toList =
      ListingLine.ofBytes offset first rest ::
        (linesFrom
          (offset + (ListingLine.ofBytes offset first rest).bytes.length)
          (rest.drop
            ((ListingLine.ofBytes offset first rest).bytes.length - 1))
          #[]).toList := by
  rw [linesFrom, toList_linesFrom]
  rfl

/-- The first line of a listing starts where the listing does; an empty listing
ends there. -/
theorem offset_head?_linesFrom (offset : Nat) (bytes : List UInt8) :
    ((linesFrom offset bytes #[]).toList.head?.map ListingLine.offset).getD
      (offset + bytes.length) = offset := by
  cases bytes with
  | nil => rw [linesFrom]; rfl
  | cons first rest =>
      rw [toList_linesFrom_cons, List.head?_cons, Option.map_some,
        Option.getD_some, ListingLine.offset_ofBytes]

/-- A line in the middle of a listing is the first line of the bytes that are
left there, and behind it the listing goes on where the line ends. -/
theorem exists_of_linesFrom_eq
    {offset : Nat} {bytes : List UInt8} {front back : List ListingLine}
    {line : ListingLine}
    (h : (linesFrom offset bytes #[]).toList = front ++ line :: back) :
    offset ≤ line.offset ∧
      (∃ first rest, bytes.drop (line.offset - offset) = first :: rest ∧
        line = ListingLine.ofBytes line.offset first rest) ∧
      (back.head?.map ListingLine.offset).getD (offset + bytes.length) =
        line.offset + line.bytes.length := by
  induction front generalizing offset bytes with
  | nil =>
      cases bytes with
      | nil => rw [linesFrom] at h; cases h
      | cons first rest =>
          rw [toList_linesFrom_cons] at h
          obtain ⟨hline, hback⟩ := List.cons.inj h
          have hoffset := ListingLine.offset_ofBytes offset first rest
          have hlength := congrArg List.length
            (ListingLine.bytes_ofBytes_append offset first rest)
          have hnext := offset_head?_linesFrom
            (offset + (ListingLine.ofBytes offset first rest).bytes.length)
            (rest.drop
              ((ListingLine.ofBytes offset first rest).bytes.length - 1))
          rw [hback] at hnext
          rw [List.length_append] at hlength
          rw [Nat.add_assoc, hlength] at hnext
          rw [← hline, hoffset]
          refine ⟨Nat.le_refl _, ⟨first, rest, ?_, rfl⟩, hnext⟩
          rw [Nat.sub_self, List.drop_zero]
  | cons head front ih =>
      cases bytes with
      | nil => rw [linesFrom] at h; cases h
      | cons first rest =>
          rw [toList_linesFrom_cons] at h
          obtain ⟨-, htail⟩ := List.cons.inj h
          obtain ⟨hle, ⟨start, more, hdrop, hline⟩, hnext⟩ := ih htail
          have hwhole := ListingLine.bytes_ofBytes_append offset first rest
          generalize (ListingLine.ofBytes offset first rest).bytes = taken
            at hle hdrop hnext hwhole
          have hskip : line.offset - offset =
              taken.length + (line.offset - (offset + taken.length)) := by
            omega
          rw [← hwhole, List.length_append, ← Nat.add_assoc]
          refine ⟨by omega, ⟨start, more, ?_, hline⟩, hnext⟩
          rw [hskip, List.drop_length_add_append]
          exact hdrop

end Listing
end ByteMachine
