import ByteMachine.Proofs.Outline
import ByteMachine.Proofs.Reading

/-!
# Every rendering of a program assembles to it

An outline can be written as text in many ways.  `SpellsProgram` lists the
freedoms: padding, gaps, letter case, notations of numbers, comments, further
blank lines and both kinds of line ends.  Whatever choices are made, the
assembler returns the bytes of the outline and the offsets of its labels.
-/

namespace ByteMachine

/-! ## Spelled programs -/

/-- The two ways to end a line. -/
inductive LineEnd : List Char → Prop
  | feed : LineEnd ['\n']
  | returnFeed : LineEnd ['\r', '\n']

/-- The texts that a line of a program may be written as. -/
def SpellsProgramLine (line : ProgramLine) (cs : List Char) : Prop :=
  ∃ words, SourceLine.SpellsLine line.labels words cs ∧
    match line.statement with
    | none => words = []
    | some statement => SpellsStatement statement words

/-- The texts that a program may be written as.  Blank lines, which may hold a
comment, stand wherever the writer likes, and the last line need not be
ended. -/
inductive SpellsProgram : Outline → List Char → Prop
  | nil : SpellsProgram [] []
  | last {line : ProgramLine} {cs : List Char}
      (hline : SpellsProgramLine line cs) : SpellsProgram [line] cs
  | lastBlank {cs : List Char} (hblank : SourceLine.SpellsLine [] [] cs) :
      SpellsProgram [] cs
  | line {line : ProgramLine} {cs ending rest : List Char} {outline : Outline}
      (hline : SpellsProgramLine line cs) (hending : LineEnd ending)
      (hrest : SpellsProgram outline rest) :
      SpellsProgram (line :: outline) (cs ++ (ending ++ rest))
  | blank {cs ending rest : List Char} {outline : Outline}
      (hblank : SourceLine.SpellsLine [] [] cs) (hending : LineEnd ending)
      (hrest : SpellsProgram outline rest) :
      SpellsProgram outline (cs ++ (ending ++ rest))

/-- Whether the labels and the statement of a line may be written. -/
structure ProgramLine.WellFormed (line : ProgramLine) : Prop where
  labels : ∀ name ∈ line.labels, IsIdentifier name
  statement : ∀ statement ∈ line.statement, statement.WellFormed

namespace Outline

/-- What an abstract program must satisfy: labels are identifiers, each defined
once and at an offset of sixteen bits, jump targets are defined, registers are
those of the bank, and data is not empty. -/
structure WellFormed (outline : Outline) : Prop where
  identifiers : ∀ name ∈ names outline, IsIdentifier name
  distinct : (names outline).Nodup
  reachable : ∀ entry ∈ labelOffsets 0 outline, entry.2 ≤ 65535
  closed : Closed outline
  registers : ∀ i, Statement.instruction i ∈ statements outline →
    ∀ r ∈ i.registers, r.toNat < 8
  data : ∀ bytes, Statement.data bytes ∈ statements outline → bytes ≠ []

theorem WellFormed.line
    {outline : Outline} (h : WellFormed outline) {line : ProgramLine}
    (hmem : line ∈ outline) : line.WellFormed := by
  constructor
  · intro name hname
    exact h.identifiers name (List.mem_flatMap.mpr ⟨line, hmem, hname⟩)
  · intro statement hstatement
    have hin : statement ∈ statements outline :=
      List.mem_filterMap.mpr ⟨line, hmem, hstatement⟩
    refine ⟨?_, ?_, ?_⟩
    · rintro i rfl
      exact h.registers i hin
    · rintro bytes rfl
      exact h.data bytes hin
    · intro name hname
      exact h.identifiers name (h.closed _ hin (.label name) hname)

theorem WellFormed.admissible
    {outline : Outline} (h : WellFormed outline) :
    Admissible 0 [] outline where
  named name hname := isLabelName_of_isIdentifier (h.identifiers name hname)
  distinct := h.distinct
  fresh := by simp
  reachable entry hentry := Nat.lt_succ_of_le (h.reachable entry hentry)

/-! ## Blank lines do not count -/

/-- The lines that hold something. -/
def solid (outline : Outline) : Outline :=
  outline.filter fun line => line ≠ ⟨[], none⟩

theorem solid_cons_blank (outline : Outline) :
    solid (⟨[], none⟩ :: outline) = solid outline := by
  simp [solid]

theorem solid_cons_of_ne
    {line : ProgramLine} (hline : line ≠ ⟨[], none⟩) (outline : Outline) :
    solid (line :: outline) = line :: solid outline := by
  simp [solid, hline]

theorem solid_cons_congr
    (line : ProgramLine) {outline other : Outline}
    (h : solid outline = solid other) :
    solid (line :: outline) = solid (line :: other) := by
  simp only [solid, List.filter_cons] at h ⊢
  rw [h]

theorem names_solid (outline : Outline) :
    names (solid outline) = names outline := by
  induction outline with
  | nil => rfl
  | cons line outline ih =>
      by_cases hblank : line = ⟨[], none⟩
      · rw [hblank, solid_cons_blank, ih, names_cons]
        rfl
      · rw [solid_cons_of_ne hblank, names_cons, names_cons, ih]

theorem statements_solid (outline : Outline) :
    statements (solid outline) = statements outline := by
  induction outline with
  | nil => rfl
  | cons line outline ih =>
      by_cases hblank : line = ⟨[], none⟩
      · rw [hblank, solid_cons_blank, ih]
        rfl
      · rw [solid_cons_of_ne hblank]
        simp only [statements, List.filterMap_cons] at ih ⊢
        rw [ih]

theorem labelOffsets_solid (base : Nat) (outline : Outline) :
    labelOffsets base (solid outline) = labelOffsets base outline := by
  induction outline generalizing base with
  | nil => rfl
  | cons line outline ih =>
      by_cases hblank : line = ⟨[], none⟩
      · rw [hblank, solid_cons_blank, ih]
        rfl
      · rw [solid_cons_of_ne hblank, labelOffsets, labelOffsets, ih]

/-- Two outlines that differ in blank lines only. -/
def SameProgram (outline other : Outline) : Prop :=
  solid outline = solid other

theorem SameProgram.names_eq
    {outline other : Outline} (h : SameProgram outline other) :
    names outline = names other := by
  rw [← names_solid outline, h, names_solid]

theorem SameProgram.statements_eq
    {outline other : Outline} (h : SameProgram outline other) :
    statements outline = statements other := by
  rw [← statements_solid outline, h, statements_solid]

theorem SameProgram.labelOffsets_eq
    {outline other : Outline} (h : SameProgram outline other) (base : Nat) :
    labelOffsets base outline = labelOffsets base other := by
  rw [← labelOffsets_solid base outline, h, labelOffsets_solid]

theorem SameProgram.bytes_eq
    {outline other : Outline} (h : SameProgram outline other) :
    bytes outline = bytes other := by
  have hposition : position outline = position other := by
    funext name
    rw [position, position, h.labelOffsets_eq]
  rw [bytes, bytes, h.statements_eq, hposition]

theorem SameProgram.labelTable_eq
    {outline other : Outline} (h : SameProgram outline other) :
    labelTable outline = labelTable other := by
  rw [labelTable, labelTable, h.labelOffsets_eq]

theorem SameProgram.admissible
    {outline other : Outline} (h : SameProgram outline other)
    (hother : Admissible 0 [] other) : Admissible 0 [] outline where
  named := h.names_eq ▸ hother.named
  distinct := h.names_eq ▸ hother.distinct
  fresh := h.names_eq ▸ hother.fresh
  reachable := h.labelOffsets_eq 0 ▸ hother.reachable

theorem SameProgram.closed
    {outline other : Outline} (h : SameProgram outline other)
    (hother : Closed other) : Closed outline := by
  rw [Closed, h.statements_eq, h.names_eq]
  exact hother

end Outline

/-! ## Reading a spelled program -/

theorem ProgramLine.read_of_spells
    {labels words : List String} {statement : Statement}
    (h : SpellsStatement statement words) (hwell : statement.WellFormed) :
    ProgramLine.read ⟨labels, words⟩ = .ok ⟨labels, some statement⟩ := by
  cases words with
  | nil => cases h
  | cons mnemonic operands =>
      have hread := Statement.read_of_spells h hwell
      exact Result.map_eq_ok_iff.mpr ⟨statement, hread, rfl⟩

/-- A spelled line is read as the line, and stays on one line. -/
theorem SpellsProgramLine.read_eq
    {line : ProgramLine} {cs : List Char} (h : SpellsProgramLine line cs)
    (hwell : line.WellFormed) :
    ProgramLine.read (SourceLine.ofText cs) = .ok line ∧ '\n' ∉ cs := by
  obtain ⟨words, hline, hwords⟩ := h
  have hnames : ∀ name ∈ line.labels, SourceLine.IsWord name :=
    fun name hname => (hwell.labels name hname).isWord
  obtain ⟨labels, statement⟩ := line
  cases statement with
  | none =>
      obtain rfl : words = [] := hwords
      rw [hline.ofText_eq hnames (by simp)]
      exact ⟨rfl, hline.newline_not_mem hnames (by simp)⟩
  | some statement =>
      have hspelled : SpellsStatement statement words := hwords
      have hwell := hwell.statement statement rfl
      have hisWord := hspelled.isWord hwell.label
      rw [hline.ofText_eq hnames hisWord]
      exact ⟨ProgramLine.read_of_spells hspelled hwell,
        hline.newline_not_mem hnames hisWord⟩

/-- The first of several lines. -/
theorem Outline.IsOutlineOf.cons
    {line : ProgramLine} {cs ending rest : List Char} {outline : Outline}
    (hread : ProgramLine.read (SourceLine.ofText cs) = .ok line)
    (hcs : '\n' ∉ cs) (hending : LineEnd ending)
    (hrest : Outline.IsOutlineOf outline rest) :
    Outline.IsOutlineOf (line :: outline) (cs ++ (ending ++ rest)) := by
  cases hending with
  | feed =>
      have hlines := Text.lines_append_newline hcs rest
      rw [Outline.IsOutlineOf, List.singleton_append, hlines, List.map_cons,
        hread, hrest]
      rfl
  | returnFeed =>
      have hreturn : '\n' ∉ cs ++ ['\r'] := by simpa using hcs
      have hlines := Text.lines_append_newline hreturn rest
      rw [List.append_assoc] at hlines
      rw [Outline.IsOutlineOf, List.cons_append, List.singleton_append]
      rw [List.singleton_append] at hlines
      rw [hlines, List.map_cons, SourceLine.ofText_append_return, hread, hrest]
      rfl

/-- A line that ends the text without a line end. -/
theorem Outline.IsOutlineOf.last
    {line : ProgramLine} {cs : List Char}
    (hread : ProgramLine.read (SourceLine.ofText cs) = .ok line)
    (hcs : '\n' ∉ cs) :
    ∃ outline, Outline.IsOutlineOf outline cs ∧
      Outline.SameProgram outline [line] := by
  by_cases hne : cs = []
  · subst hne
    obtain rfl := Except.ok.inj hread
    refine ⟨[], ?_, rfl⟩
    rw [Outline.IsOutlineOf, Text.lines_nil]
    rfl
  · refine ⟨[line], ?_, rfl⟩
    rw [Outline.IsOutlineOf, Text.lines_of_not_mem hcs hne, List.map_singleton,
      hread]
    rfl

theorem SourceLine.SpellsLine.read_blank
    {cs : List Char} (h : SourceLine.SpellsLine [] [] cs) :
    ProgramLine.read (SourceLine.ofText cs) = .ok ⟨[], none⟩ ∧ '\n' ∉ cs :=
  SpellsProgramLine.read_eq ⟨[], h, rfl⟩ ⟨by simp, by simp⟩

/-- A spelled program is read as the program up to blank lines. -/
theorem SpellsProgram.exists_isOutlineOf
    {outline : Outline} {cs : List Char} (h : SpellsProgram outline cs)
    (hwell : ∀ line ∈ outline, line.WellFormed) :
    ∃ read, Outline.IsOutlineOf read cs ∧ Outline.SameProgram read outline := by
  induction h with
  | nil =>
      refine ⟨[], ?_, rfl⟩
      rw [Outline.IsOutlineOf, Text.lines_nil]
      rfl
  | last hline =>
      obtain ⟨hread, hfeed⟩ := hline.read_eq (hwell _ (by simp))
      exact Outline.IsOutlineOf.last hread hfeed
  | lastBlank hblank =>
      obtain ⟨hread, hfeed⟩ := hblank.read_blank
      obtain ⟨read, houtline, hsame⟩ := Outline.IsOutlineOf.last hread hfeed
      exact ⟨read, houtline, hsame.trans (Outline.solid_cons_blank [])⟩
  | line hline hending hrest ih =>
      obtain ⟨hread, hfeed⟩ := hline.read_eq (hwell _ (by simp))
      obtain ⟨read, houtline, hsame⟩ :=
        ih fun other hother => hwell other (by simp [hother])
      exact ⟨_, houtline.cons hread hfeed hending,
        Outline.solid_cons_congr _ hsame⟩
  | blank hblank hending hrest ih =>
      obtain ⟨hread, hfeed⟩ := hblank.read_blank
      obtain ⟨read, houtline, hsame⟩ := ih hwell
      exact ⟨_, houtline.cons hread hfeed hending,
        (Outline.solid_cons_blank read).trans hsame⟩

theorem Outline.lookup_labelTable_eq_some_iff
    {outline : Outline} (hwell : Outline.WellFormed outline)
    {name : String} {address : Address} :
    (Outline.labelTable outline).lookup name = some address ↔
      (name, address.toNat) ∈ Outline.labelOffsets 0 outline :=
  hwell.admissible.lookup_labelTable_iff

theorem assemble_of_spellsProgram
    {outline : Outline} {source : String}
    (hwell : Outline.WellFormed outline)
    (hsource : SpellsProgram outline source.toList) :
    assemble source =
      .ok ⟨Outline.bytes outline, Outline.labelTable outline⟩ := by
  obtain ⟨read, hread, hsame⟩ :=
    hsource.exists_isOutlineOf fun line hline => hwell.line hline
  refine assemble_eq_ok_iff.mpr ⟨read, hread, hsame.admissible hwell.admissible,
    hsame.closed hwell.closed, ?_⟩
  rw [hsame.bytes_eq, hsame.labelTable_eq]

/-- The assembler is correct on every rendering of a well-formed program: it
returns the bytes of the program, every label target replaced by the offset of
its definition, and exactly the labels of the program with their offsets. -/
theorem assemble_rendering
    {outline : Outline} {source : String}
    (hwell : Outline.WellFormed outline)
    (hsource : SpellsProgram outline source.toList) :
    ∃ program, assemble source = .ok program ∧
      program.bytes = Outline.bytes outline ∧
      ∀ name address, program.labels.lookup name = some address ↔
        (name, address.toNat) ∈ Outline.labelOffsets 0 outline :=
  ⟨_, assemble_of_spellsProgram hwell hsource, rfl, fun _ _ =>
    Outline.lookup_labelTable_eq_some_iff hwell⟩

/-- A program with a label that is used before it is defined. -/
def Outline.forwardJump : Outline :=
  [⟨["start"], some (.instruction (.load 0 10))⟩,
    ⟨[], some (.instruction (.jumpIfZero 0 (.label "done")))⟩,
    ⟨["done", "end_"], some (.data [1, 255])⟩]

/-- A text of that program: a comment that looks like a statement, a line with
a comment only, both line ends, and numbers in three notations. -/
def Outline.forwardJumpText : String :=
  "start:\tLoAd R0,\t$0A ; go: HALT\r\n ; jmp\njz r00 done\n" ++
    " done : end_:DB 0X1,\t0255  "

theorem Outline.wellFormed_forwardJump : WellFormed forwardJump where
  identifiers := by decide
  distinct := by decide
  reachable := by decide
  closed := by
    simp [Closed, statements, forwardJump, Statement.target?,
      Instruction.target?, Target.IsDefined, names]
  registers := by simp [statements, forwardJump, Instruction.registers]
  data := by simp [statements, forwardJump]

theorem Outline.spellsProgram_forwardJumpText :
    SpellsProgram forwardJump forwardJumpText.toList := by
  have hnone : SourceLine.Padding [] := by decide
  have htab : SourceLine.Padding ['\t'] := by decide
  have hblank : SourceLine.Padding [' '] := by decide
  have hblanks : SourceLine.Padding [' ', ' '] := by decide
  have hgap : SourceLine.Gap [' '] := by decide
  have hcomma : SourceLine.Gap [',', '\t'] := by decide
  have hload : SpellsProgramLine ⟨["start"], some (.instruction (.load 0 10))⟩
      "start:\tLoAd R0,\t$0A ; go: HALT".toList := by
    have hwords := SourceLine.SpellsWords.cons "LoAd" hgap
      (.cons "R0" hcomma (.single "$0A"))
    have hbody := SourceLine.SpellsBody.label "start" hnone hnone
      (.statement htab hwords hblank)
    have hcomment : SourceLine.SpellsComment "; go: HALT".toList :=
      .some (by decide)
    refine ⟨_, ⟨_, _, hbody, hcomment, by decide⟩, ?_⟩
    exact .instruction (by decide)
      (.load (.capital ⟨0, by decide⟩) (.dollar ⟨1, by decide⟩))
  have hremark : SourceLine.SpellsLine [] [] " ; jmp".toList :=
    ⟨[' '], "; jmp".toList, .blank hblank, .some (by decide), rfl⟩
  have hjump : SpellsProgramLine
      ⟨[], some (.instruction (.jumpIfZero 0 (.label "done")))⟩
      "jz r00 done".toList := by
    have hwords := SourceLine.SpellsWords.cons "jz" hgap
      (.cons "r00" hgap (.single "done"))
    have hbody := SourceLine.SpellsBody.statement hnone hwords hnone
    refine ⟨_, ⟨_, _, hbody, .none, by decide⟩, ?_⟩
    exact .instruction (by decide)
      (.jumpIfZero (.small ⟨1, by decide⟩) (.label "done"))
  have hdata : SpellsProgramLine ⟨["done", "end_"], some (.data [1, 255])⟩
      " done : end_:DB 0X1,\t0255  ".toList := by
    have hwords := SourceLine.SpellsWords.cons "DB" hgap
      (.cons "0X1" hcomma (.single "0255"))
    have hbody := SourceLine.SpellsBody.label "done" hblank hblank
      (.label "end_" hblank hnone (.statement hnone hwords hblanks))
    refine ⟨_, ⟨_, _, hbody, .none, by decide⟩, ?_⟩
    exact .data (by decide) (.cons (.hexCapital ⟨0, by decide⟩)
      (.cons (.decimal ⟨1, by decide⟩) .nil))
  exact .line hload .returnFeed
    (.blank hremark .feed (.line hjump .feed (.last hdata)))

theorem assemble_rendering_forwardJump :
    ∃ program, assemble Outline.forwardJumpText = .ok program ∧
      program.bytes = [1, 0, 10, 7, 0, 0, 7, 1, 255] ∧
      program.labels.lookup "done" = some 7 := by
  obtain ⟨program, hassemble, hbytes, hlabels⟩ := assemble_rendering
    Outline.wellFormed_forwardJump Outline.spellsProgram_forwardJumpText
  refine ⟨program, hassemble, ?_, ?_⟩
  · rw [hbytes]
    decide
  · rw [hlabels]
    decide

end ByteMachine
