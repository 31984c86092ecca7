import ByteMachine.Proofs.PassAgreement

/-!
# Complaints name the first offending line

Most complaints are about a line in view of the lines before it: `Flaw` lists
what can be wrong there, without the assembler.  The first pass stops at the
first line that has a flaw, so that nothing behind that line matters.  A label
without a definition is no flaw of a line, because the definition may still
come; it is looked for in the second pass, and is complained about only when no
line has a flaw.
-/

namespace ByteMachine

/-! ## The first lines of a text -/

/-- The first lines of a text, each with a line feed behind it. -/
def firstLines (n : Nat) (source : String) : String :=
  String.ofList
    (((Text.lines source.toList).take n).flatMap fun line => line ++ ['\n'])

theorem Text.lines_flatMap_newline
    {more : List (List Char)} (h : ∀ line ∈ more, '\n' ∉ line) :
    lines (more.flatMap fun line => line ++ ['\n']) = more := by
  induction more with
  | nil => exact lines_nil
  | cons line more ih =>
      obtain ⟨hline, hmore⟩ := List.forall_mem_cons.mp h
      rw [List.flatMap_cons, List.append_assoc, List.singleton_append,
        lines_append_newline hline, ih hmore]

theorem lines_firstLines (n : Nat) (source : String) :
    Text.lines (firstLines n source).toList =
      (Text.lines source.toList).take n := by
  rw [firstLines, String.toList_ofList]
  apply Text.lines_flatMap_newline
  intro line hline
  exact Text.newline_not_mem_of_mem_lines _ line (List.mem_of_mem_take hline)

theorem take_sourceLines (n : Nat) (source : String) :
    (sourceLines source).take n =
      ((Text.lines source.toList).take n).map SourceLine.ofText := by
  rw [sourceLines, List.map_take]

theorem sourceLines_firstLines (n : Nat) (source : String) :
    sourceLines (firstLines n source) = (sourceLines source).take n := by
  rw [take_sourceLines, ← lines_firstLines, sourceLines]

/-! ## Flaws of lines -/

namespace SourceLine

/-- What can be wrong with a line behind the lines `before`, whatever follows.
-/
inductive Flaw (before : List SourceLine) (line : SourceLine) :
    Complaint → Prop
  /-- The text before a colon is no label name. -/
  | invalidLabel {name : String} (hname : name ∈ line.labels)
      (hinvalid : isLabelName name = false) :
      Flaw before line (.invalidLabel name)
  /-- A label has been defined before, on this line or an earlier one. -/
  | duplicateLabel {front back : List String} {name : String}
      (hlabels : line.labels = front ++ name :: back)
      (hknown : name ∈ before.flatMap labels ++ front) :
      Flaw before line (.duplicateLabel name)
  /-- A label stands behind the last address. -/
  | addressOverflow (hlabels : line.labels ≠ [])
      (hfar : 65535 < encodedSize before) :
      Flaw before line (.addressOverflow (encodedSize before))
  /-- The words of the line are no statement. -/
  | statement {mnemonic : String} {operands : List String}
      {complaint : Complaint} (hwords : line.words = mnemonic :: operands)
      (hread : Statement.read mnemonic operands = .error complaint) :
      Flaw before line complaint

/-- No line has a flaw. -/
def Flawless (sources : List SourceLine) : Prop :=
  ∀ front line back, sources = front ++ line :: back →
    ∀ complaint, ¬Flaw front line complaint

end SourceLine

/-! ## The first pass stops at the first flaw -/

namespace Layout

/-- The layout of the lines `before` and of the first labels of a further
line. -/
structure Follows (layout : Layout) (before : List SourceLine)
    (labels : List String) : Prop where
  known : ∀ name, name ∈ layout.known ↔
    name ∈ before.flatMap SourceLine.labels ++ labels
  size : layout.size = SourceLine.encodedSize before

/-- Lines that are accepted are followed by their layout. -/
theorem follows_of_addLines
    {before : List SourceLine} {layout : Layout}
    (h : addLines 1 {} before = .ok layout) : Follows layout before [] := by
  obtain ⟨outline, hreads, -, rfl⟩ := addLines_eq_ok_iff.mp h
  constructor
  · intro name
    rw [List.append_nil, ← Outline.names_of_reads hreads]
    exact mem_known_ofOutline_iff
  · rw [← Outline.size_of_reads hreads]
    exact Nat.zero_add _

section

variable {number : Nat} {layout : Layout} {before : List SourceLine}
  {line : SourceLine} {error : AssemblyError}

/-- A label that is refused is a flaw of its line. -/
theorem Follows.flaw_of_define
    {front back : List String} {name : String}
    (hlayout : Follows layout before front)
    (hlabels : line.labels = front ++ name :: back)
    (h : define number layout name = .error error) :
    error.line = number ∧ SourceLine.Flaw before line error.complaint := by
  have hname : name ∈ line.labels := by
    rw [hlabels]
    exact List.mem_append_right _ List.mem_cons_self
  rw [define] at h
  split at h
  case isTrue hinvalid =>
    obtain rfl := Except.error.inj h
    exact ⟨rfl, .invalidLabel hname (by simpa using hinvalid)⟩
  split at h
  case isTrue hlookup =>
    obtain rfl := Except.error.inj h
    have hknown := lookup_isSome_iff_mem_known.mp hlookup
    exact ⟨rfl, .duplicateLabel hlabels ((hlayout.known name).mp hknown)⟩
  split at h
  case isTrue => cases h
  case isFalse hfar =>
    obtain rfl := Except.error.inj h
    have hlarge : 65535 < SourceLine.encodedSize before := by
      rw [← hlayout.size]
      exact Nat.not_lt.mp hfar
    have hoverflow := SourceLine.Flaw.addressOverflow
      (List.ne_nil_of_mem hname) hlarge
    rw [← hlayout.size] at hoverflow
    exact ⟨rfl, hoverflow⟩

/-- A label that is accepted is known from then on. -/
theorem Follows.after_define
    {front : List String} {name : String} {next : Layout}
    (hlayout : Follows layout before front)
    (h : Layout.define number layout name = .ok next) :
    Follows next before (front ++ [name]) := by
  obtain ⟨-, -, -, rfl⟩ := define_eq_ok_iff.mp h
  constructor
  · intro other
    change other ∈ name :: layout.known ↔ _
    rw [List.mem_cons, hlayout.known, ← List.append_assoc,
      List.mem_append (t := [name]), List.mem_singleton, or_comm]
  · exact hlayout.size

/-- The labels of a line are defined up to the first one that is refused. -/
theorem Follows.flaw_of_foldlM_define
    {front labels : List String} (hlayout : Follows layout before front)
    (hlabels : line.labels = front ++ labels)
    (h : labels.foldlM (Layout.define number) layout = .error error) :
    error.line = number ∧ SourceLine.Flaw before line error.complaint := by
  induction labels generalizing layout front with
  | nil => cases h
  | cons name labels ih =>
      rw [List.foldlM_cons, Result.bind_eq_error_iff] at h
      rcases h with hrefused | ⟨next, hnext, hlater⟩
      · exact hlayout.flaw_of_define hlabels hrefused
      · apply ih (hlayout.after_define hnext) _ hlater
        rw [hlabels, List.append_assoc, List.singleton_append]

/-- A line that is refused has a flaw. -/
theorem Follows.flaw_of_addLine
    (hlayout : Follows layout before [])
    (h : addLine number layout line = .error error) :
    error.line = number ∧ SourceLine.Flaw before line error.complaint := by
  rw [addLine, Result.bind_eq_error_iff] at h
  rcases h with hlabels | ⟨next, -, hwords⟩
  · exact hlayout.flaw_of_foldlM_define rfl hlabels
  · split at hwords
    case h_1 => cases hwords
    case h_2 mnemonic operands hline =>
      split at hwords
      case h_1 => cases hwords
      case h_2 complaint hread =>
        obtain rfl := Except.error.inj hwords
        exact ⟨rfl, .statement hline hread⟩

/-- A line that is accepted has no flaw. -/
theorem Follows.not_flaw_of_addLine
    {next : Layout} (hlayout : Follows layout before [])
    (h : addLine number layout line = .ok next) (complaint : Complaint) :
    ¬SourceLine.Flaw before line complaint := by
  obtain ⟨here, hread, hnamed, hdistinct, hfresh, hreachable, -⟩ :=
    addLine_eq_ok_iff.mp h
  rw [ProgramLine.labels_of_read hread] at hnamed hdistinct hfresh hreachable
  intro hflaw
  cases hflaw with
  | invalidLabel hname hinvalid =>
      rw [hnamed _ hname] at hinvalid
      cases hinvalid
  | @duplicateLabel front back name hlabels hknown =>
      rw [hlabels] at hdistinct hfresh
      rcases List.mem_append.mp hknown with hearlier | hfront
      · apply hfresh name (List.mem_append_right _ List.mem_cons_self)
        rw [hlayout.known, List.append_nil]
        exact hearlier
      · exact (List.nodup_append.mp hdistinct).2.2 name hfront name
          List.mem_cons_self rfl
  | addressOverflow hlabels hfar =>
      have hnear := hreachable hlabels
      rw [hlayout.size] at hnear
      exact Nat.not_lt.mpr (Nat.le_of_lt_succ hnear) hfar
  | statement hwords hstatement =>
      rw [ProgramLine.read, hwords] at hread
      simp [hstatement] at hread

end

/-- Lines that are accepted have no flaws. -/
theorem flawless_of_addLines
    {sources : List SourceLine} {layout : Layout}
    (h : addLines 1 {} sources = .ok layout) :
    SourceLine.Flawless sources := by
  rintro front line back rfl
  rw [addLines_append, Result.bind_eq_ok_iff] at h
  obtain ⟨middle, hfront, hrest⟩ := h
  rw [addLines_cons, Result.bind_eq_ok_iff] at hrest
  obtain ⟨next, hline, -⟩ := hrest
  exact (follows_of_addLines hfront).not_flaw_of_addLine hline

/-- Lines that are refused are accepted up to one of them. -/
theorem exists_of_addLines_eq_error
    {number : Nat} {layout : Layout} {sources : List SourceLine}
    {error : AssemblyError}
    (h : addLines number layout sources = .error error) :
    ∃ front line back middle, sources = front ++ line :: back ∧
      addLines number layout front = .ok middle ∧
      addLine (number + front.length) middle line = .error error := by
  induction sources generalizing number layout with
  | nil => cases h
  | cons source sources ih =>
      rw [addLines_cons, Result.bind_eq_error_iff] at h
      rcases h with hfirst | ⟨next, hnext, hlater⟩
      · exact ⟨[], source, sources, layout, rfl, rfl, hfirst⟩
      · obtain ⟨front, line, back, middle, rfl, hfront, hline⟩ := ih hlater
        refine ⟨source :: front, line, back, middle, rfl, ?_, ?_⟩
        · rw [addLines_cons, hnext, Result.ok_bind, hfront]
        · rw [List.length_cons, Nat.add_comm front.length, ← Nat.add_assoc]
          exact hline

end Layout

/-! ## Reading a line says nothing about undefined labels -/

section

variable (word name : String)

theorem Operand.number_ne_labelNotFound :
    number word ≠ .error (.labelNotFound name) := by
  rw [number]
  split <;> simp

theorem Operand.byte_ne_labelNotFound :
    byte word ≠ .error (.labelNotFound name) := by
  apply Result.bind_ne_error (number_ne_labelNotFound word name)
  intro value
  split <;> simp

theorem Operand.address_ne_labelNotFound :
    address word ≠ .error (.labelNotFound name) := by
  apply Result.bind_ne_error (number_ne_labelNotFound word name)
  intro value
  split <;> simp

theorem Operand.register_ne_labelNotFound :
    register word ≠ .error (.labelNotFound name) := by
  rw [register]
  split <;> simp

theorem Operand.target_ne_labelNotFound :
    target word ≠ .error (.labelNotFound name) := by
  rw [target]
  split
  · rw [ne_eq, Result.map_eq_error_iff]
    exact address_ne_labelNotFound word name
  · simp

end

theorem Statement.readOperands_ne_labelNotFound
    (operation : Opcode) (words : List String) (name : String) :
    readOperands operation words ≠ .error (.labelNotFound name) := by
  unfold readOperands
  split
  case h_1 => simp
  case h_2 register value =>
    apply Result.bind_ne_error (Operand.register_ne_labelNotFound register name)
    intro r
    apply Result.bind_ne_error (Operand.byte_ne_labelNotFound value name)
    simp
  case h_3 left right destination =>
    apply Result.bind_ne_error (Operand.register_ne_labelNotFound left name)
    intro l
    apply Result.bind_ne_error (Operand.register_ne_labelNotFound right name)
    intro r
    apply Result.bind_ne_error
      (Operand.register_ne_labelNotFound destination name)
    simp
  case h_4 target =>
    apply Result.bind_ne_error (Operand.target_ne_labelNotFound target name)
    simp
  case h_5 register target =>
    apply Result.bind_ne_error (Operand.register_ne_labelNotFound register name)
    intro r
    apply Result.bind_ne_error (Operand.target_ne_labelNotFound target name)
    simp
  case h_6 register | h_7 register | h_8 register =>
    apply Result.bind_ne_error (Operand.register_ne_labelNotFound register name)
    simp
  case h_9 => split <;> simp

theorem Statement.read_ne_labelNotFound
    (mnemonic : String) (operands : List String) (name : String) :
    read mnemonic operands ≠ .error (.labelNotFound name) := by
  rw [read]
  split
  · rw [ne_eq, Result.map_eq_error_iff, readData]
    split
    · simp
    · intro h
      obtain ⟨_, word, _, _, hword, -⟩ := Result.exists_of_mapM_eq_error h
      exact Operand.byte_ne_labelNotFound word name hword
  · split
    · simp
    · rw [ne_eq, Result.map_eq_error_iff]
      exact readOperands_ne_labelNotFound _ operands name

theorem SourceLine.Flaw.ne_labelNotFound
    {before : List SourceLine} {line : SourceLine} {complaint : Complaint}
    (h : Flaw before line complaint) (name : String) :
    complaint ≠ .labelNotFound name := by
  rintro rfl
  cases h with
  | statement hwords hread => exact Statement.read_ne_labelNotFound _ _ _ hread

/-! ## The second pass stops at the first undefined label -/

theorem Target.exists_of_resolve_eq_error
    {labels : List (String × Address)} {target : Target}
    {complaint : Complaint} (h : target.resolve labels = .error complaint) :
    ∃ name, target = .label name ∧ complaint = .labelNotFound name ∧
      name ∉ labels.map Prod.fst := by
  cases target with
  | address value => cases h
  | label name =>
      rw [resolve] at h
      split at h
      case h_1 => cases h
      case h_2 hlookup =>
        obtain rfl := Except.error.inj h
        refine ⟨name, rfl, rfl, ?_⟩
        rw [← lookup_isSome_iff_mem_keys, hlookup]
        simp

/-- A statement fails when its target is a label that is not in the table. -/
theorem Statement.exists_of_emit_eq_error
    {labels : List (String × Address)} {statement : Statement}
    {complaint : Complaint} (h : statement.emit labels = .error complaint) :
    ∃ name, statement.target? = some (.label name) ∧
      complaint = .labelNotFound name ∧ name ∉ labels.map Prod.fst := by
  cases statement with
  | data bytes => cases h
  | instruction i =>
      rw [emit, Result.map_eq_error_iff] at h
      cases i with
      | jump target | jumpIfZero register target =>
          have hresolve := Result.map_eq_error_iff.mp h
          obtain ⟨name, rfl, hcomplaint, hunknown⟩ :=
            Target.exists_of_resolve_eq_error hresolve
          exact ⟨name, rfl, hcomplaint, hunknown⟩
      | halt | load | arithmetic | push | pop | print => cases h

theorem Layout.exists_of_emit_eq_error
    {layout : Layout} {error : AssemblyError}
    (h : layout.emit = .error error) :
    ∃ front placed back name, layout.placed.toList = front ++ placed :: back ∧
      error = ⟨placed.line, .labelNotFound name⟩ ∧
      placed.statement.target? = some (.label name) ∧ name ∉ layout.known ∧
      ∀ earlier ∈ front, ∀ target ∈ earlier.statement.target?,
        target.IsDefined layout.known := by
  rw [emit, Result.bind_eq_error_iff] at h
  rcases h with hparts | ⟨_, -, hdone⟩
  case inr => cases hdone
  obtain ⟨front, placed, back, hplaced, hemit, hfront⟩ :=
    Result.exists_of_mapM_eq_error hparts
  rw [Placed.emit] at hemit
  split at hemit
  case h_1 => cases hemit
  case h_2 complaint hstatement =>
    obtain rfl := Except.error.inj hemit
    obtain ⟨name, htarget, rfl, hunknown⟩ :=
      Statement.exists_of_emit_eq_error hstatement
    refine ⟨front, placed, back, name, hplaced, rfl, htarget, hunknown, ?_⟩
    intro earlier hearlier
    obtain ⟨part, hpart⟩ := hfront earlier hearlier
    rw [Placed.emit] at hpart
    split at hpart
    case h_1 hok => exact ((Statement.emit_eq_ok_iff _ _).mp hok).1
    case h_2 => cases hpart

namespace Outline

/-- Statements are placed in the order of their lines. -/
theorem pairwise_placements (number base : Nat) (outline : Outline) :
    (placements number base outline).Pairwise
      fun placed later => placed.line < later.line := by
  induction outline generalizing number base with
  | nil => exact List.Pairwise.nil
  | cons line rest ih =>
      rw [placements, List.pairwise_append]
      refine ⟨?_, ih _ _, ?_⟩
      · cases line.statement with
        | none => exact List.Pairwise.nil
        | some statement => exact List.pairwise_singleton _ _
      · intro placed hplaced later hlater
        obtain ⟨statement, -, rfl⟩ := List.mem_map.mp hplaced
        obtain ⟨front, _, _, -, -, hnumber, -⟩ := mem_placements_iff.mp hlater
        rw [hnumber]
        exact Nat.lt_of_lt_of_le (Nat.lt_succ_self number)
          (Nat.le_add_right _ _)

/-- A jump to a label is placed on its line. -/
theorem exists_placed_of_jumpWord?
    {source : String} {outline : Outline}
    (hreads : (sourceLines source).map ProgramLine.read = outline.map .ok)
    {front back : List SourceLine} {line : SourceLine}
    (hlines : sourceLines source = front ++ line :: back) {name : String}
    (hword : line.jumpWord? = some name)
    (hname : Operand.looksNumeric name = false) :
    ∃ placed ∈ placements 1 0 outline, placed.line = front.length + 1 ∧
      placed.statement.target? = some (.label name) := by
  have hcut := hreads
  rw [hlines] at hcut
  obtain ⟨-, here, -, -, -, hread⟩ := exists_cut_of_reads hcut
  obtain ⟨statement, hstatement, htarget⟩ :=
    ProgramLine.exists_jump_of_read hread hword hname
  refine ⟨⟨front.length + 1, SourceLine.encodedSize front, statement⟩, ?_, rfl,
    htarget⟩
  exact (mem_placements_iff_of_reads hreads).mpr
    ⟨front, line, back, hlines, hstatement, rfl, rfl⟩

/-- What is placed on an earlier line is placed earlier. -/
theorem mem_front_of_line_lt
    {number base : Nat} {outline : Outline} {front back : List Placed}
    {placed earlier : Placed}
    (h : placements number base outline = front ++ placed :: back)
    (hmem : earlier ∈ placements number base outline)
    (hline : earlier.line < placed.line) : earlier ∈ front := by
  have hsorted := pairwise_placements number base outline
  rw [h] at hmem hsorted
  rcases List.mem_append.mp hmem with hfront | hlater
  · exact hfront
  · rcases List.mem_cons.mp hlater with rfl | hback
    · exact absurd hline (Nat.lt_irrefl _)
    · have hplaced := (List.pairwise_append.mp hsorted).2.1
      have hgreater := (List.pairwise_cons.mp hplaced).1 earlier hback
      exact absurd hline (Nat.lt_asymm hgreater)

end Outline

/-! ## Errors of the assembler -/

/-- A text is refused in the first pass, or in the second one. -/
theorem assemble_eq_error_iff
    {source : String} {error : AssemblyError} :
    assemble source = .error error ↔
      Layout.addLines 1 {} (sourceLines source) = .error error ∨
        ∃ layout, Layout.addLines 1 {} (sourceLines source) = .ok layout ∧
          layout.emit = .error error := by
  rw [assemble, Layout.ofText_eq_addLines, Result.bind_eq_error_iff]
  simp only [Result.bind_eq_error_iff, Result.pure_eq_ok, reduceCtorEq,
    and_false, exists_false, or_false, sourceLines]

/-- A text that the first pass accepts assembles, or has an undefined label. -/
theorem assemble_of_addLines
    {source : String} {layout : Layout}
    (h : Layout.addLines 1 {} (sourceLines source) = .ok layout) :
    (∃ program, assemble source = .ok program) ∨
      ∃ line name, assemble source = .error ⟨line, .labelNotFound name⟩ := by
  cases hassemble : assemble source with
  | ok program => exact .inl ⟨program, rfl⟩
  | error error =>
      rcases assemble_eq_error_iff.mp hassemble with hrefused | ⟨_, -, hemit⟩
      · rw [h] at hrefused
        cases hrefused
      · obtain ⟨_, placed, _, name, -, rfl, -⟩ :=
          Layout.exists_of_emit_eq_error hemit
        exact .inr ⟨placed.line, name, rfl⟩

/-- The error is about the first line of the text that has a flaw. -/
structure FirstFlaw (source : String) (error : AssemblyError) : Prop where
  /-- The line has the flaw, and the lines in front have none. -/
  flaw : ∃ front line back, sourceLines source = front ++ line :: back ∧
    error.line = front.length + 1 ∧
    SourceLine.Flaw front line error.complaint ∧ SourceLine.Flawless front
  /-- The lines in front assemble, unless they lack a label. -/
  before : (∃ program,
      assemble (firstLines (error.line - 1) source) = .ok program) ∨
    ∃ line name, assemble (firstLines (error.line - 1) source) =
      .error ⟨line, .labelNotFound name⟩
  /-- The lines up to this one have the same error. -/
  alone : assemble (firstLines error.line source) = .error error
  /-- Whatever follows these lines does not change the error. -/
  after : ∀ other : String,
    (Text.lines other.toList).take error.line =
        (Text.lines source.toList).take error.line →
      assemble other = .error error

/-- The label `name` is the first target in the text that is not defined in it,
and stands on the line `number`. -/
structure FirstUndefined (source : String) (number : Nat) (name : String) :
    Prop where
  /-- Nothing else is wrong with any line. -/
  flawless : SourceLine.Flawless (sourceLines source)
  /-- No line defines the label. -/
  undefined : ∀ line ∈ Text.lines source.toList,
    ¬SourceLine.Defines line name
  /-- The line is a jump to the label, and the targets on the lines in front
  that are labels are defined somewhere. -/
  first : ∃ front line back, sourceLines source = front ++ line :: back ∧
    number = front.length + 1 ∧ line.jumpWord? = some name ∧
    Operand.looksNumeric name = false ∧
    ∀ earlier ∈ front, ∀ other, earlier.jumpWord? = some other →
      Operand.looksNumeric other = false →
      ∃ text ∈ Text.lines source.toList, SourceLine.Defines text other

theorem firstFlaw_of_addLines
    {source : String} {error : AssemblyError}
    (h : Layout.addLines 1 {} (sourceLines source) = .error error) :
    FirstFlaw source error := by
  obtain ⟨front, line, back, middle, hlines, hfront, hline⟩ :=
    Layout.exists_of_addLines_eq_error h
  obtain ⟨hnumber, hflaw⟩ :=
    (Layout.follows_of_addLines hfront).flaw_of_addLine hline
  rw [Nat.add_comm] at hnumber
  have hafter : ∀ other : String,
      (Text.lines other.toList).take error.line =
          (Text.lines source.toList).take error.line →
        assemble other = .error error := by
    intro other hother
    have htake : (sourceLines other).take error.line = front ++ [line] := by
      rw [take_sourceLines, hother, ← take_sourceLines, hlines, hnumber,
        List.take_length_add_append, List.take_succ_cons, List.take_zero]
    rw [assemble_eq_error_iff,
      ← List.take_append_drop error.line (sourceLines other), htake,
      List.append_assoc, List.singleton_append]
    exact .inl (Layout.addLines_of_addLine_eq_error hfront hline _)
  constructor
  case flaw =>
    exact ⟨front, line, back, hlines, hnumber, hflaw,
      Layout.flawless_of_addLines hfront⟩
  case before =>
    apply assemble_of_addLines
    rw [sourceLines_firstLines, hlines, hnumber, Nat.add_sub_cancel,
      List.take_left]
    exact hfront
  case alone =>
    apply hafter
    rw [lines_firstLines, List.take_take, Nat.min_self]
  case after => exact hafter

theorem firstUndefined_of_emit
    {source : String} {layout : Layout} {error : AssemblyError}
    (hlayout : Layout.addLines 1 {} (sourceLines source) = .ok layout)
    (h : layout.emit = .error error) :
    ∃ name, error.complaint = .labelNotFound name ∧
      FirstUndefined source error.line name := by
  have hflawless := Layout.flawless_of_addLines hlayout
  obtain ⟨placedFront, placed, placedBack, name, hplaced, rfl, htarget,
    hunknown, hearlier⟩ := Layout.exists_of_emit_eq_error h
  obtain ⟨outline, hreads, -, rfl⟩ := Layout.addLines_eq_ok_iff.mp hlayout
  have hknown : ∀ other, other ∈ (Layout.ofOutline outline).known ↔
      ∃ text ∈ Text.lines source.toList, SourceLine.Defines text other := by
    intro other
    rw [Layout.mem_known_ofOutline_iff]
    exact Outline.mem_names_iff_of_reads hreads
  change (Layout.ofOutline outline).placed.toList = _ at hplaced
  rw [Layout.placed_ofOutline] at hplaced
  have hmem : placed ∈ Outline.placements 1 0 outline := by
    rw [hplaced]
    exact List.mem_append_right _ List.mem_cons_self
  obtain ⟨front, line, back, hlines, hstatement, hnumber, -⟩ :=
    (Outline.mem_placements_iff_of_reads hreads).mp hmem
  obtain ⟨hword, hname⟩ :=
    (SourceLine.target?_eq_label_iff hstatement name).mp htarget
  refine ⟨name, rfl, hflawless, ?_, front, line, back, hlines, hnumber, hword,
    hname, ?_⟩
  · intro text htext hdefines
    exact hunknown ((hknown name).mpr ⟨text, htext, hdefines⟩)
  · intro other hother word hjump hlabel
    obtain ⟨first, rest, rfl⟩ := List.append_of_mem hother
    rw [List.append_assoc, List.cons_append] at hlines
    obtain ⟨jump, hplace, hline, hjumps⟩ :=
      Outline.exists_placed_of_jumpWord? hreads hlines hjump hlabel
    have hbefore : jump.line < placed.line := by
      rw [hline, hnumber, List.length_append, List.length_cons]
      omega
    have hdefined := hearlier jump
      (Outline.mem_front_of_line_lt hplaced hplace hbefore) _ hjumps
    exact (hknown word).mp hdefined

/-- The line of an error is a line of the text.  A complaint about anything but
an undefined label is about the first line with a flaw; a complaint about an
undefined label is made when no line has a flaw, and is about the first jump to
such a label. -/
theorem errors_point_at_first_offence
    {source : String} {error : AssemblyError}
    (h : assemble source = .error error) :
    1 ≤ error.line ∧ error.line ≤ (Text.lines source.toList).length ∧
      ((∀ name, error.complaint ≠ .labelNotFound name) →
        FirstFlaw source error) ∧
      ∀ name, error.complaint = .labelNotFound name →
        FirstUndefined source error.line name := by
  have hlength : (sourceLines source).length =
      (Text.lines source.toList).length := by
    rw [sourceLines, List.length_map]
  rcases assemble_eq_error_iff.mp h with hrefused | ⟨layout, hlayout, hemit⟩
  · have hfirst := firstFlaw_of_addLines hrefused
    obtain ⟨front, line, back, hlines, hnumber, hflaw, -⟩ := hfirst.flaw
    rw [hlines, List.length_append, List.length_cons] at hlength
    refine ⟨by omega, by omega, fun _ => hfirst, ?_⟩
    intro name hcomplaint
    exact absurd hcomplaint (hflaw.ne_labelNotFound name)
  · obtain ⟨name, hcomplaint, hundefined⟩ :=
      firstUndefined_of_emit hlayout hemit
    obtain ⟨front, line, back, hlines, hnumber, -⟩ := hundefined.first
    rw [hlines, List.length_append, List.length_cons] at hlength
    refine ⟨by omega, by omega, ?_, ?_⟩
    · intro hother
      exact absurd hcomplaint (hother name)
    · intro other hother
      rw [hcomplaint, Complaint.labelNotFound.injEq] at hother
      rw [← hother]
      exact hundefined

/-- A large number behind a jump to an undefined label, also when the text goes
on to define the label; and an undefined label behind a jump to a label that is
defined later. -/
theorem errors_point_at_first_offence_secondLine :
    assemble "jmp nowhere\n load r0, 256\n x" =
        .error ⟨2, .outOfRange 256 8⟩ ∧
      assemble "jmp nowhere\n load r0, 256\nnowhere: halt" =
        .error ⟨2, .outOfRange 256 8⟩ ∧
      assemble "jz r1 here\nhere: jmp there" =
        .error ⟨2, .labelNotFound "there"⟩ ∧
      FirstUndefined "jz r1 here\nhere: jmp there" 2 "there" := by
  have hnumber : assemble "jmp nowhere\n load r0, 256\n x" =
      .error ⟨2, .outOfRange 256 8⟩ := by
    decide +kernel
  have hlabel : assemble "jz r1 here\nhere: jmp there" =
      .error ⟨2, .labelNotFound "there"⟩ := by
    decide +kernel
  obtain ⟨-, -, hflaw, -⟩ := errors_point_at_first_offence hnumber
  obtain ⟨-, -, -, hundefined⟩ := errors_point_at_first_offence hlabel
  refine ⟨hnumber, (hflaw ?_).after _ ?_, hlabel, hundefined "there" rfl⟩
  · intro name hname
    cases hname
  · decide +kernel

end ByteMachine
