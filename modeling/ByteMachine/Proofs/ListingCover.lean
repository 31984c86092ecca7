import ByteMachine.Proofs.Tiling

/-!
# Listings cut anywhere

A listing may be cut between any two of its lines.  The lines in front of the
cut hold the first bytes of the string, and the lines behind it are the listing
of the bytes that are left.  Where a line stands changes its offset and nothing
else, so that the second part of a listing is a listing in its own right once
its offsets are counted from the cut.
-/

namespace ByteMachine

theorem Opcode.ofByte?_eq_none_iff {byte : UInt8} :
    ofByte? byte = none ↔ 0x0B ≤ byte.toNat := by
  rw [ofByte?, List.getElem?_eq_none_iff]
  rfl

theorem Opcode.operandBytes_le (operation : Opcode) :
    operation.operandBytes ≤ 3 := by
  cases operation <;> simp [operandBytes]

namespace ListingLine

/-- The line with its offset counted from a later start. -/
def countedFrom (start : Nat) (line : ListingLine) : ListingLine :=
  { line with offset := line.offset - start }

/-- A line depends on its offset in no other way than to show it. -/
theorem ofBytes_with_offset
    (offset other : Nat) (first : UInt8) (rest : List UInt8) :
    { ofBytes offset first rest with offset := other } =
      ofBytes other first rest := by
  unfold ofBytes
  split <;> rfl

end ListingLine

namespace Listing

/-- Behind a cut stands the listing of the bytes that are left there. -/
theorem linesFrom_of_cut
    {offset : Nat} {bytes : List UInt8} {front back : List ListingLine}
    (h : (linesFrom offset bytes #[]).toList = front ++ back) :
    ∃ rest, bytes = front.flatMap ListingLine.bytes ++ rest ∧
      (linesFrom (offset + (front.flatMap ListingLine.bytes).length) rest
        #[]).toList = back := by
  induction front generalizing offset bytes with
  | nil => exact ⟨bytes, rfl, h⟩
  | cons line front ih =>
      cases bytes with
      | nil =>
          rw [linesFrom] at h
          cases h
      | cons first more =>
          rw [toList_linesFrom_cons, List.cons_append] at h
          obtain ⟨rfl, hlater⟩ := List.cons.inj h
          obtain ⟨rest, hmore, hback⟩ := ih hlater
          have hwhole := ListingLine.bytes_ofBytes_append offset first more
          rw [hmore] at hwhole
          refine ⟨rest, ?_, ?_⟩
          · rw [List.flatMap_cons, List.append_assoc]
            exact hwhole.symm
          · rw [List.flatMap_cons, List.length_append, ← Nat.add_assoc]
            exact hback

/-- Counted from an earlier start, the lines are those of a listing that begins
earlier by as much. -/
theorem map_countedFrom_linesFrom
    (start offset : Nat) (bytes : List UInt8) (hstart : start ≤ offset) :
    (linesFrom offset bytes #[]).toList.map (ListingLine.countedFrom start) =
      (linesFrom (offset - start) bytes #[]).toList := by
  revert hstart
  refine linesFrom_induction
    (p := fun offset bytes lines => start ≤ offset →
      lines.map (ListingLine.countedFrom start) =
        (linesFrom (offset - start) bytes #[]).toList) ?_ ?_ offset bytes
  · intro offset _
    rw [linesFrom]
    rfl
  · intro offset first rest lines ih hstart
    have hhead : (ListingLine.ofBytes offset first rest).countedFrom start =
        ListingLine.ofBytes (offset - start) first rest := by
      rw [ListingLine.countedFrom, ListingLine.ofBytes_with_offset,
        ListingLine.offset_ofBytes]
    have hbytes : (ListingLine.ofBytes (offset - start) first rest).bytes =
        (ListingLine.ofBytes offset first rest).bytes := by
      rw [← hhead]
      rfl
    have htail := ih (Nat.le_add_right_of_le hstart)
    rw [List.map_cons, hhead, htail, toList_linesFrom_cons, hbytes,
      Nat.sub_add_comm hstart]

/-- A line that shows no instruction is a byte that names no operation, or an
instruction that the end of the bytes cuts off. -/
theorem undecoded_of_linesFrom
    {offset : Nat} {bytes : List UInt8} {line : ListingLine}
    {back : List ListingLine}
    (h : (linesFrom offset bytes #[]).toList = line :: back)
    (hnone : line.instruction = none) :
    (∃ byte, line.bytes = [byte] ∧ 0x0B ≤ byte.toNat) ∨
      (back = [] ∧ line.bytes = bytes ∧
        ∃ operation operands, line.bytes = Opcode.byte operation :: operands ∧
          operands.length < operation.operandBytes) := by
  cases bytes with
  | nil =>
      rw [linesFrom] at h
      cases h
  | cons first rest =>
      rw [toList_linesFrom_cons] at h
      obtain ⟨hline, hback⟩ := List.cons.inj h
      rcases ListingLine.ofBytes_cases offset first rest with
        ⟨instruction, -, hshown⟩ | ⟨hforeign, hshown⟩ |
        ⟨operation, hfirst, hshort, hshown⟩
      · rw [hshown] at hline
        subst hline
        cases hnone
      · rw [hshown] at hline
        subst hline
        exact .inl ⟨first, rfl, Opcode.ofByte?_eq_none_iff.mp hforeign⟩
      · rw [hshown] at hline hback
        subst hline
        have hend : rest.drop ((first :: rest).length - 1) = [] := by
          simp
        rw [hend, linesFrom] at hback
        rw [← Opcode.byte_of_ofByte? hfirst]
        exact .inr ⟨hback.symm, rfl, operation, rest, rfl, hshort⟩

end Listing

/-- The listing of any byte string tiles it.  The bytes of its lines join to the
string, and every line stands at the number of bytes in front of it, inside the
string.  It is not empty, and holds the encoding of the instruction that it
shows; without one it is a single byte that names no operation, or the last
line, up to three bytes of an instruction that needs more.  The listing of the
bytes from there on consists of the lines from there on. -/
theorem listing_tiles (bytes : List UInt8) :
    (Listing.lines bytes).flatMap ListingLine.bytes = bytes ∧
    ∀ front line back, Listing.lines bytes = front ++ line :: back →
      line.bytes ≠ [] ∧
      line.offset = (front.flatMap ListingLine.bytes).length ∧
      line.offset + line.bytes.length ≤ bytes.length ∧
      (∀ instruction, line.instruction = some instruction →
        instruction.encode = line.bytes) ∧
      (line.instruction = none →
        (∃ byte, line.bytes = [byte] ∧ 0x0B ≤ byte.toNat) ∨
        (back = [] ∧ line.bytes = bytes.drop line.offset ∧
          1 ≤ line.bytes.length ∧ line.bytes.length ≤ 3 ∧
          ∃ operation operands,
            line.bytes = Opcode.byte operation :: operands ∧
            operands.length < operation.operandBytes)) ∧
      Listing.lines (bytes.drop line.offset) =
        (line :: back).map (ListingLine.countedFrom line.offset) := by
  refine ⟨Listing.flatMap_bytes_lines bytes, ?_⟩
  intro front line back hlines
  have htile : line.IsTile := Listing.isTile_of_mem_lines bytes line (by
    rw [hlines]
    exact List.mem_append_right _ List.mem_cons_self)
  obtain ⟨rest, hrest, hcut⟩ := Listing.linesFrom_of_cut hlines
  rw [Nat.zero_add] at hcut
  have hoffset : line.offset = (front.flatMap ListingLine.bytes).length := by
    have hhead := Listing.offset_head?_linesFrom
      (front.flatMap ListingLine.bytes).length rest
    rwa [hcut, List.head?_cons, Option.map_some, Option.getD_some] at hhead
  have hdrop : bytes.drop line.offset = rest := by
    rw [hoffset, hrest, List.drop_left]
  rw [← hoffset] at hcut
  refine ⟨htile.ne_nil, hoffset, ?_,
    fun instruction hshown => (htile.encode instruction hshown).symm, ?_, ?_⟩
  · have hall := Listing.flatMap_bytes_lines bytes
    rw [hlines, List.flatMap_append, List.flatMap_cons] at hall
    have hlength := congrArg List.length hall
    rw [List.length_append, List.length_append] at hlength
    omega
  · intro hnone
    rcases Listing.undecoded_of_linesFrom hcut hnone with
      hsingle | ⟨hlast, hbytes, operation, operands, hopening, hshort⟩
    · exact .inl hsingle
    · have hmost := operation.operandBytes_le
      have hlength : line.bytes.length = operands.length + 1 := by
        rw [hopening, List.length_cons]
      exact .inr ⟨hlast, by rw [hdrop, hbytes], by omega, by omega, operation,
        operands, hopening, hshort⟩
  · have hshifted := Listing.map_countedFrom_linesFrom line.offset line.offset
      rest (Nat.le_refl _)
    rw [hcut, Nat.sub_self] at hshifted
    rw [hdrop, hshifted]
    rfl

/-- A byte that names no operation between two instructions, the second one of
which is cut off by the end. -/
theorem listing_tiles_cutOff :
    Listing.lines [8, 3, 255, 1, 7] =
        [⟨0, [8, 3], some (.push 3)⟩] ++
          ⟨2, [255], none⟩ :: [⟨3, [1, 7], none⟩] ∧
      Listing.lines [255, 1, 7] = [⟨0, [255], none⟩, ⟨1, [1, 7], none⟩] := by
  have hlines : Listing.lines [8, 3, 255, 1, 7] =
      [⟨0, [8, 3], some (.push 3)⟩] ++
        ⟨2, [255], none⟩ :: [⟨3, [1, 7], none⟩] := by
    decide +kernel
  obtain ⟨-, -, -, -, -, hrest⟩ :=
    (listing_tiles [8, 3, 255, 1, 7]).2 _ _ _ hlines
  exact ⟨hlines, hrest⟩

end ByteMachine
