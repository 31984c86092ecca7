import ByteMachine.Proofs.Reassembly
import ByteMachine.Proofs.SourceItems

/-!
# Both passes agree on the layout

The first pass counts the sizes of statements and fixes the labels by them; the
second pass joins what the statements are encoded as.  Nothing compares the two
while they run.  They agree because a statement is encoded in as many bytes as
were counted for it, whatever addresses its labels turn out to have: every
statement begins in the program where the first pass had placed it, and every
label stands for what follows it.
-/

namespace ByteMachine

/-! ## Encodings of statements -/

/-- A statement with a label for its target is encoded as some bytes that do not
depend on the label, and the two bytes of the address of the label. -/
theorem Statement.exists_opening
    {statement : Statement} {name : String}
    (h : statement.target? = some (.label name)) :
    ∃ opening, statement.size = opening.length + 2 ∧
      ∀ position, statement.bytes position =
        opening ++ addressBytes (position name) := by
  cases statement with
  | data bytes => cases h
  | instruction i =>
      cases i with
      | jump target =>
          obtain rfl := Option.some.inj h
          exact ⟨[Opcode.jump.byte], rfl, fun _ => rfl⟩
      | jumpIfZero register target =>
          obtain rfl := Option.some.inj h
          exact ⟨[Opcode.jumpIfZero.byte, register], rfl, fun _ => rfl⟩
      | halt | load | arithmetic | push | pop | print => cases h

namespace Outline

/-- The bytes of a statement stand behind those of the lines in front. -/
theorem take_drop_bytes
    {front back : Outline} {line : ProgramLine} {statement : Statement}
    (h : line.statement = some statement) :
    ((bytes (front ++ line :: back)).drop (size front)).take statement.size =
      statement.bytes (position (front ++ line :: back)) := by
  have hstatements : statements (front ++ line :: back) =
      statements front ++ statement :: statements back := by
    rw [statements_append]
    simp [statements, h]
  rw [bytes, hstatements, size_eq_totalSize, Statement.drop_flatMap_bytes,
    List.flatMap_cons, ← Statement.length_bytes, List.take_left]

/-- With the labels of a closed outline the second pass emits the bytes of each
of its statements. -/
theorem emit_of_mem_statements
    {outline : Outline} (hdistinct : (names outline).Nodup)
    (hclosed : Closed outline) {statement : Statement}
    (hmem : statement ∈ statements outline) :
    statement.emit (labelTable outline) =
      .ok (statement.bytes (position outline)) := by
  refine (Statement.emit_eq_ok_iff statement _).mpr ⟨?_, ?_⟩
  · intro target htarget
    have hdefined := hclosed statement hmem target htarget
    cases target with
    | address value => trivial
    | label name =>
        rw [Target.IsDefined, map_fst_labelTable, List.mem_reverse]
        exact hdefined
  · rw [position_eq_lookup hdistinct]

end Outline

/-! ## Laid out programs -/

/-- A program has the layout that the first pass gave to its text. -/
structure Program.LaidOut (source : String) (layout : Layout)
    (program : Program) : Prop where
  /-- The words of every line that has some are a statement. -/
  readable : ∀ line ∈ sourceLines source, line.words ≠ [] →
    ∃ statement, line.statement? = some statement
  /-- The labels are the names before colons. -/
  keys : ∀ name, name ∈ program.labels.map Prod.fst ↔
    ∃ line ∈ Text.lines source.toList, SourceLine.Defines line name
  /-- Each of them is defined once. -/
  once : ((sourceLines source).flatMap SourceLine.labels).Nodup ∧
    (program.labels.map Prod.fst).Nodup
  /-- A label has sixteen bits and stands for the size of all statements on the
  lines in front of its own. -/
  addresses : ∀ front line back, sourceLines source = front ++ line :: back →
    ∀ name ∈ line.labels, SourceLine.encodedSize front ≤ 65535 ∧
      LabelAt program.labels name (SourceLine.encodedSize front)
  /-- The first pass places the statements of the text, each on its line and
  behind the statements on the lines in front. -/
  items : ∀ placed, placed ∈ layout.placed.toList ↔
    ∃ front line back, sourceLines source = front ++ line :: back ∧
      line.statement? = some placed.statement ∧
      placed.line = front.length + 1 ∧
      placed.address = SourceLine.encodedSize front
  /-- The program is as long as all statements together. -/
  length : program.bytes.length =
    SourceLine.encodedSize (sourceLines source)
  /-- What the second pass emits for a statement has the size counted for it,
  and is the part of the program that starts at the address given to it. -/
  slices : ∀ placed ∈ layout.placed.toList, ∃ part,
    placed.statement.emit program.labels = .ok part ∧
      part.length = placed.statement.size ∧
      (program.bytes.drop placed.address).take placed.statement.size = part
  /-- A jump to a word that does not look like a number ends in the address of
  the label with that name, high byte first. -/
  targets : ∀ front line back, sourceLines source = front ++ line :: back →
    ∀ name, line.jumpWord? = some name → Operand.looksNumeric name = false →
      ∃ statement opening address, line.statement? = some statement ∧
        program.labels.lookup name = some address ∧
        (program.bytes.drop (SourceLine.encodedSize front)).take
            statement.size =
          opening ++ [UInt8.ofNat (address.toNat / 256),
            UInt8.ofNat (address.toNat % 256)]

namespace Outline

/-- The table has the address of every name of the outline. -/
theorem Admissible.lookup_of_mem_names
    {outline : Outline} (h : Admissible 0 [] outline) {name : String}
    (hname : name ∈ names outline) :
    (labelTable outline).lookup name = some (position outline name) := by
  obtain ⟨offset, hentry⟩ := exists_mem_labelOffsets hname
  rw [h.lookup_labelTable_iff,
    position_of_mem_labelOffsets h.distinct hentry,
    UInt16.toNat_ofNat_of_lt' (h.reachable _ hentry)]
  exact hentry

theorem statement_mem_of_mem_placements
    {number base : Nat} {outline : Outline} {placed : Placed}
    (h : placed ∈ placements number base outline) :
    placed.statement ∈ statements outline := by
  rw [← map_statement_placements number base]
  exact List.mem_map.mpr ⟨placed, h, rfl⟩

section

variable {source : String} {outline : Outline}

theorem Admissible.labelAt_of_lines
    (hadmissible : Admissible 0 [] outline)
    (hreads : (sourceLines source).map ProgramLine.read = outline.map .ok)
    {front back : List SourceLine} {line : SourceLine}
    (hlines : sourceLines source = front ++ line :: back) {name : String}
    (hname : name ∈ line.labels) :
    SourceLine.encodedSize front ≤ 65535 ∧
      LabelAt (labelTable outline) name (SourceLine.encodedSize front) := by
  rw [hlines] at hreads
  obtain ⟨before, here, after, rfl, hfront, hhere⟩ :=
    exists_cut_of_reads hreads
  have hentry : (name, size before) ∈
      labelOffsets 0 (before ++ here :: after) := by
    refine mem_labelOffsets_iff.mpr ⟨before, here, after, rfl, ?_, ?_⟩
    · rw [ProgramLine.labels_of_read hhere]
      exact hname
    · rw [Nat.zero_add]
  rw [← size_of_reads hfront]
  exact ⟨Nat.le_of_lt_succ (hadmissible.reachable _ hentry),
    hadmissible.labelAt hentry⟩

theorem mem_placements_iff_of_reads
    (hreads : (sourceLines source).map ProgramLine.read = outline.map .ok)
    {placed : Placed} :
    placed ∈ placements 1 0 outline ↔
      ∃ front line back, sourceLines source = front ++ line :: back ∧
        line.statement? = some placed.statement ∧
        placed.line = front.length + 1 ∧
        placed.address = SourceLine.encodedSize front := by
  rw [mem_placements_iff]
  constructor
  · rintro ⟨before, here, after, rfl, hstatement, hnumber, haddress⟩
    obtain ⟨front, line, back, hlines, hfront, hline⟩ :=
      exists_lines_of_cut hreads
    have hlength := congrArg List.length hfront
    rw [List.length_map, List.length_map] at hlength
    refine ⟨front, line, back, hlines, ?_, ?_, ?_⟩
    · rw [← ProgramLine.statement_of_read hline, hstatement]
    · omega
    · rw [haddress, Nat.zero_add, size_of_reads hfront]
  · rintro ⟨front, line, back, hlines, hstatement, hnumber, haddress⟩
    rw [hlines] at hreads
    obtain ⟨before, here, after, rfl, hfront, hline⟩ :=
      exists_cut_of_reads hreads
    have hlength := congrArg List.length hfront
    rw [List.length_map, List.length_map] at hlength
    refine ⟨before, here, after, rfl, ?_, ?_, ?_⟩
    · rw [ProgramLine.statement_of_read hline, hstatement]
    · omega
    · rw [haddress, Nat.zero_add, size_of_reads hfront]

/-- A jump to a label is encoded with the address that the table has for it. -/
theorem Admissible.ends_in_address
    (hadmissible : Admissible 0 [] outline) (hclosed : Closed outline)
    (hreads : (sourceLines source).map ProgramLine.read = outline.map .ok)
    {front back : List SourceLine} {line : SourceLine}
    (hlines : sourceLines source = front ++ line :: back) {name : String}
    (hword : line.jumpWord? = some name)
    (hname : Operand.looksNumeric name = false) :
    ∃ statement opening address, line.statement? = some statement ∧
      (labelTable outline).lookup name = some address ∧
      ((bytes outline).drop (SourceLine.encodedSize front)).take
          statement.size =
        opening ++ [UInt8.ofNat (address.toNat / 256),
          UInt8.ofNat (address.toNat % 256)] := by
  rw [hlines] at hreads
  obtain ⟨before, here, after, rfl, hfront, hline⟩ :=
    exists_cut_of_reads hreads
  obtain ⟨statement, hstatement, htarget⟩ :=
    ProgramLine.exists_jump_of_read hline hword hname
  have hhere : here.statement = some statement := by
    rw [ProgramLine.statement_of_read hline, hstatement]
  have hmem : statement ∈ statements (before ++ here :: after) :=
    List.mem_filterMap.mpr
      ⟨here, List.mem_append_right _ List.mem_cons_self, hhere⟩
  obtain ⟨opening, -, hbytes⟩ := Statement.exists_opening htarget
  refine ⟨statement, opening, _, hstatement,
    hadmissible.lookup_of_mem_names (hclosed statement hmem _ htarget), ?_⟩
  rw [← size_of_reads hfront, take_drop_bytes hhere, hbytes, addressBytes]

end

end Outline

/-- Both passes of the assembler agree on the layout of every text that
assembles. -/
theorem passes_agree_on_layout
    {source : String} {program : Program}
    (hassemble : assemble source = .ok program) :
    ∃ layout, Layout.ofText source.toList = .ok layout ∧
      program.LaidOut source layout := by
  obtain ⟨outline, houtline, hadmissible, hclosed, rfl⟩ :=
    assemble_eq_ok_iff.mp hassemble
  have hreads := houtline.reads
  have hnames := Outline.names_of_reads hreads
  have hplaced := Layout.placed_ofOutline outline
  refine ⟨Layout.ofOutline outline,
    Layout.ofText_eq_ok_iff.mpr ⟨outline, houtline, hadmissible, rfl⟩, ?_⟩
  constructor
  case readable =>
    intro line hline hwords
    obtain ⟨front, back, hlines⟩ := List.append_of_mem hline
    rw [hlines] at hreads
    obtain ⟨-, here, -, -, -, hread⟩ := Outline.exists_cut_of_reads hreads
    exact ProgramLine.exists_statement_of_read hread hwords
  case keys =>
    intro name
    rw [Outline.map_fst_labelTable, List.mem_reverse]
    exact Outline.mem_names_iff_of_reads hreads
  case once =>
    rw [Outline.map_fst_labelTable, (List.reverse_perm _).nodup_iff, ← hnames]
    exact ⟨hadmissible.distinct, hadmissible.distinct⟩
  case addresses =>
    intro front line back hlines name hname
    exact hadmissible.labelAt_of_lines hreads hlines hname
  case items =>
    intro placed
    rw [hplaced]
    exact Outline.mem_placements_iff_of_reads hreads
  case length =>
    rw [Outline.length_bytes_eq_totalSize, ← Outline.size_eq_totalSize,
      Outline.size_of_reads hreads]
  case slices =>
    intro placed hmem
    rw [hplaced] at hmem
    have hemit := Outline.emit_of_mem_statements hadmissible.distinct hclosed
      (Outline.statement_mem_of_mem_placements hmem)
    obtain ⟨front, line, back, rfl, hstatement, -, haddress⟩ :=
      Outline.mem_placements_iff.mp hmem
    refine ⟨_, hemit, Statement.length_bytes _ _, ?_⟩
    rw [haddress, Nat.zero_add]
    exact Outline.take_drop_bytes hstatement
  case targets =>
    intro front line back hlines name hword hname
    exact hadmissible.ends_in_address hclosed hreads hlines hword hname

/-- A text with two labels on a line, a colon in a comment, a label on a line of
its own, and a jump to it from a line in front. -/
theorem passes_agree_on_layout_forward :
    assemble "a: B:JZ r1 ,end ; c: x\n DB 1,2\nend :\n jmp B" =
        .ok ⟨[7, 1, 0, 6, 1, 2, 6, 0, 0], [("end", 6), ("B", 0), ("a", 0)]⟩ ∧
      ∃ layout, Layout.ofText
          "a: B:JZ r1 ,end ; c: x\n DB 1,2\nend :\n jmp B".toList =
            .ok layout ∧
        ⟨4, 6, .instruction (.jump (.label "B"))⟩ ∈ layout.placed.toList := by
  have hassemble : assemble "a: B:JZ r1 ,end ; c: x\n DB 1,2\nend :\n jmp B" =
      .ok ⟨[7, 1, 0, 6, 1, 2, 6, 0, 0], [("end", 6), ("B", 0), ("a", 0)]⟩ := by
    decide +kernel
  obtain ⟨layout, hlayout, hlaid⟩ := passes_agree_on_layout hassemble
  refine ⟨hassemble, layout, hlayout, (hlaid.items _).mpr ?_⟩
  refine ⟨[⟨["a", "B"], ["JZ", "r1", "end"]⟩, ⟨[], ["DB", "1", "2"]⟩,
    ⟨["end"], []⟩], ⟨[], ["jmp", "B"]⟩, [], ?_⟩
  decide +kernel

end ByteMachine
