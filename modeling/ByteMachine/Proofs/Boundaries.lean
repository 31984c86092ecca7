import ByteMachine.Proofs.Decoding
import ByteMachine.Proofs.Outline
import ByteMachine.Proofs.Reading

/-!
# Boundaries between statements

The bytes of a program are cut into those of its statements.  The cuts are the
only offsets at which the assembler lets anything begin: statements are placed
at them and labels stand for them.  Behind a cut the bytes start with those of
the next statement.
-/

namespace ByteMachine

namespace Statement

/-- The number of bytes of a row of statements. -/
def totalSize : List Statement → Nat
  | [] => 0
  | statement :: rest => statement.size + totalSize rest

theorem totalSize_append (front back : List Statement) :
    totalSize (front ++ back) = totalSize front + totalSize back := by
  induction front with
  | nil => simp [totalSize]
  | cons statement front ih => simp [totalSize, ih, Nat.add_assoc]

theorem length_flatMap_bytes
    (position : String → Address) (statements : List Statement) :
    (statements.flatMap (bytes position)).length = totalSize statements := by
  induction statements with
  | nil => rfl
  | cons statement rest ih =>
      rw [List.flatMap_cons, List.length_append, length_bytes, ih, totalSize]

/-- Whether an offset is the size of the statements in front of some cut. -/
def IsBoundary (statements : List Statement) (offset : Nat) : Prop :=
  ∃ front back, statements = front ++ back ∧ offset = totalSize front

theorem IsBoundary.le
    {statements : List Statement} {offset : Nat}
    (h : IsBoundary statements offset) : offset ≤ totalSize statements := by
  obtain ⟨front, back, rfl, rfl⟩ := h
  rw [totalSize_append]
  exact Nat.le_add_right _ _

/-- A boundary is the end, or the place of a statement. -/
theorem IsBoundary.cases
    {statements : List Statement} {offset : Nat}
    (h : IsBoundary statements offset) :
    offset = totalSize statements ∨
      ∃ front statement back, statements = front ++ statement :: back ∧
        offset = totalSize front ∧
        IsBoundary statements (offset + statement.size) := by
  obtain ⟨front, back, rfl, rfl⟩ := h
  cases back with
  | nil =>
      left
      rw [List.append_nil]
  | cons statement back =>
      right
      refine ⟨front, statement, back, rfl, rfl, ?_⟩
      refine ⟨front ++ [statement], back, by simp, ?_⟩
      rw [totalSize_append]
      simp [totalSize]

/-- Behind the statements of a front part stand the bytes of the others. -/
theorem drop_flatMap_bytes
    (position : String → Address) (front back : List Statement) :
    ((front ++ back).flatMap (bytes position)).drop (totalSize front) =
      back.flatMap (bytes position) := by
  rw [List.flatMap_append, ← length_flatMap_bytes position front,
    List.drop_left]

end Statement

namespace Outline

theorem size_eq_totalSize (outline : Outline) :
    size outline = Statement.totalSize (statements outline) := by
  induction outline with
  | nil => rfl
  | cons line outline ih =>
      rw [size_cons, ih]
      cases hstatement : line.statement with
      | none => simp [ProgramLine.size, statements, hstatement]
      | some statement =>
          simp [ProgramLine.size, statements, hstatement, Statement.totalSize]

theorem statements_append (front back : Outline) :
    statements (front ++ back) = statements front ++ statements back := by
  simp [statements]

theorem length_bytes_eq_totalSize (outline : Outline) :
    (bytes outline).length = Statement.totalSize (statements outline) :=
  Statement.length_flatMap_bytes _ _

/-- Labels stand for boundaries. -/
theorem isBoundary_of_mem_labelOffsets
    {outline : Outline} {name : String} {offset : Nat}
    (h : (name, offset) ∈ labelOffsets 0 outline) :
    Statement.IsBoundary (statements outline) offset := by
  obtain ⟨front, line, back, rfl, -, rfl⟩ := mem_labelOffsets_iff.mp h
  refine ⟨statements front, statements (line :: back), ?_, ?_⟩
  · rw [statements_append]
  · rw [Nat.zero_add, size_eq_totalSize]

/-- The address of a label of a short program is a boundary. -/
theorem isBoundary_position
    {outline : Outline} {name : String} (hdistinct : (names outline).Nodup)
    (hname : name ∈ names outline) (hsize : (bytes outline).length ≤ 256) :
    Statement.IsBoundary (statements outline)
      (position outline name).toNat := by
  obtain ⟨offset, hentry⟩ := exists_mem_labelOffsets hname
  have hboundary := isBoundary_of_mem_labelOffsets hentry
  have hle := hboundary.le
  rw [← length_bytes_eq_totalSize] at hle
  have hlt : offset < UInt16.size :=
    Nat.lt_of_le_of_lt (Nat.le_trans hle hsize) (by decide)
  rw [position_of_mem_labelOffsets hdistinct hentry,
    UInt16.toNat_ofNat_of_lt' hlt]
  exact hboundary

/-- A statement is placed at the size of the statements in front of it. -/
theorem exists_mem_placements
    {outline : Outline} {front back : List Statement} {statement : Statement}
    (h : statements outline = front ++ statement :: back)
    (number base : Nat) :
    ∃ placed ∈ placements number base outline,
      placed.statement = statement ∧
        placed.address = base + Statement.totalSize front := by
  obtain ⟨before, later, rfl, hfront, hlater⟩ :=
    List.filterMap_eq_append_iff.mp h
  obtain ⟨gap, line, after, rfl, hgap, hline, -⟩ :=
    List.filterMap_eq_cons_iff.mp hlater
  -- Between the statements in front and this one there are lines without any.
  have hsize : size (before ++ gap) = Statement.totalSize front := by
    rw [size_eq_totalSize, statements_append, statements, hfront, statements,
      List.filterMap_eq_nil_iff.mpr hgap, List.append_nil]
  refine ⟨⟨number + (before ++ gap).length, base + size (before ++ gap),
    statement⟩, ?_, rfl, by rw [hsize]⟩
  refine mem_placements_iff.mpr
    ⟨before ++ gap, line, after, ?_, hline, rfl, rfl⟩
  rw [List.append_assoc]

/-- The instructions of a text that was read name registers of the bank. -/
theorem registers_lt_of_isOutlineOf
    {outline : Outline} {cs : List Char} (h : IsOutlineOf outline cs)
    {i : Instruction Target} (hmem : .instruction i ∈ statements outline) :
    ∀ r ∈ i.registers, r.toNat < 8 := by
  obtain ⟨line, hline, hstatement⟩ := List.mem_filterMap.mp hmem
  have hread : Except.ok line ∈ (Text.lines cs).map fun text =>
      ProgramLine.read (SourceLine.ofText text) := by
    rw [h]
    exact List.mem_map.mpr ⟨line, hline, rfl⟩
  obtain ⟨text, -, htext⟩ := List.mem_map.mp hread
  rw [ProgramLine.read] at htext
  split at htext
  · obtain rfl := Except.ok.inj htext
    cases hstatement
  · obtain ⟨statement, hstatement', rfl⟩ := Result.map_eq_ok_iff.mp htext
    obtain rfl := Option.some.inj hstatement
    exact Statement.registers_lt_of_read hstatement'

end Outline

end ByteMachine
