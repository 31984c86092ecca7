import ByteMachine.Proofs.ControlFlow
import ByteMachine.Proofs.Relisting

/-!
# Listing what was assembled

No encoded instruction can be taken for the start of another one.  The bytes of
a text without raw data are therefore cut by the listing where the assembler
joined them: it has the instructions of the text in their order, each at its
offset, with addresses in the place of labels.  Written out again, the listing
is another text of the same bytes.
-/

namespace ByteMachine

/-! ## Listings of encoded instructions -/

theorem ListingLine.ofBytes_encode
    (offset : Nat) (instruction : Instruction Address) (rest : List UInt8) :
    ofBytes offset instruction.opcode.byte (instruction.operands ++ rest) =
      ⟨offset, instruction.encode, some instruction⟩ := by
  rw [ofBytes, decode_operands]
  simp only [← instruction.length_operands, List.take_left]
  rfl

/-- An encoded instruction at the start is the first line. -/
theorem Listing.toList_linesFrom_encode
    (offset : Nat) (instruction : Instruction Address) (rest : List UInt8) :
    (linesFrom offset (instruction.encode ++ rest) #[]).toList =
      ⟨offset, instruction.encode, some instruction⟩ ::
        (linesFrom (offset + instruction.size) rest #[]).toList := by
  have hlines := toList_linesFrom_cons offset instruction.opcode.byte
    (instruction.operands ++ rest)
  rw [ListingLine.ofBytes_encode, Instruction.length_encode,
    Instruction.size, Nat.add_sub_cancel_left, ← instruction.length_operands,
    List.drop_left] at hlines
  rw [Instruction.encode, List.cons_append, hlines, instruction.length_operands]
  rfl

/-! ## Source lines without data -/

/-- Whether a line holds raw data. -/
def SourceLine.isData (source : SourceLine) : Bool :=
  match source.words with
  | [] => false
  | mnemonic :: _ => Text.capitals mnemonic == Statement.dataMnemonic

theorem Statement.exists_instruction_of_read
    {mnemonic : String} {operands : List String} {statement : Statement}
    (hmnemonic : Text.capitals mnemonic ≠ dataMnemonic)
    (h : read mnemonic operands = .ok statement) :
    ∃ written, statement = .instruction written := by
  rw [read, if_neg hmnemonic] at h
  split at h
  · cases h
  · obtain ⟨written, -, rfl⟩ := Result.map_eq_ok_iff.mp h
    exact ⟨written, rfl⟩

/-- A line without data holds an instruction or nothing but labels. -/
theorem ProgramLine.read_cases
    {source : SourceLine} {line : ProgramLine}
    (hdata : source.isData = false) (h : read source = .ok line) :
    (source.words = [] ∧ line = ⟨source.labels, none⟩) ∨
      ∃ mnemonic operands written, source.words = mnemonic :: operands ∧
        Statement.read mnemonic operands = .ok (.instruction written) ∧
        line = ⟨source.labels, some (.instruction written)⟩ := by
  rw [read] at h
  rw [SourceLine.isData] at hdata
  split at h
  case h_1 hwords =>
    exact .inl ⟨hwords, (Except.ok.inj h).symm⟩
  case h_2 mnemonic operands hwords =>
    obtain ⟨statement, hread, rfl⟩ := Result.map_eq_ok_iff.mp h
    simp only [hwords, beq_eq_false_iff_ne] at hdata
    obtain ⟨written, rfl⟩ := Statement.exists_instruction_of_read hdata hread
    exact .inr ⟨mnemonic, operands, written, hwords, hread, rfl⟩

/-! ## Listings that show a text -/

/-- Whether a label is defined and stands for the given offset. -/
def LabelAt (labels : List (String × Address)) (name : String)
    (offset : Nat) : Prop :=
  ∃ address, labels.lookup name = some address ∧ address.toNat = offset

namespace Listing

/-- The lines of a listing from an offset on show lines of source text.  There
is one line for each instruction, with the address that `labels` gives in the
place of a label, and labels stand for the offset that has been reached. -/
inductive Shows (labels : List (String × Address)) :
    Nat → List SourceLine → List ListingLine → Prop
  | nil (offset : Nat) : Shows labels offset [] []
  | blank {offset : Nat} {source : SourceLine} {sources : List SourceLine}
      {listing : List ListingLine} (hwords : source.words = [])
      (hlabels : ∀ name ∈ source.labels, LabelAt labels name offset)
      (hrest : Shows labels offset sources listing) :
      Shows labels offset (source :: sources) listing
  | instruction {offset : Nat} {source : SourceLine}
      {sources : List SourceLine} {listing : List ListingLine}
      {mnemonic : String} {operands : List String}
      {written : Instruction Target} {shown : Instruction Address}
      (hwords : source.words = mnemonic :: operands)
      (hlabels : ∀ name ∈ source.labels, LabelAt labels name offset)
      (hread : Statement.read mnemonic operands = .ok (.instruction written))
      (hresolve : written.resolve (Target.resolve labels) = .ok shown)
      (hrest : Shows labels (offset + shown.size) sources listing) :
      Shows labels offset (source :: sources)
        (⟨offset, shown.encode, some shown⟩ :: listing)

section Shown

variable {labels : List (String × Address)} {offset : Nat}
  {sources : List SourceLine} {listing : List ListingLine}

/-- What is shown was read, so that it names registers of the bank. -/
theorem Shows.namesRegisters (h : Shows labels offset sources listing) :
    ∀ line ∈ listing, line.NamesRegisters := by
  induction h with
  | nil => simp
  | blank _ _ _ ih => exact ih
  | @instruction _ _ _ _ _ _ written shown _ _ hread hresolve _ ih =>
      refine List.forall_mem_cons.mpr ⟨?_, ih⟩
      intro instruction hinstruction
      obtain rfl := Option.some.inj hinstruction
      obtain ⟨-, rfl⟩ :=
        (Instruction.resolve_eq_ok_iff Target.resolve_eq_ok_iff).mp hresolve
      rw [Instruction.registers_retarget]
      exact Statement.registers_lt_of_read hread

/-- Every line is decoded. -/
theorem Shows.exists_instructions (h : Shows labels offset sources listing) :
    ∃ instructions : List (Instruction Address),
      listing.map ListingLine.instruction = instructions.map some := by
  induction h with
  | nil => exact ⟨[], rfl⟩
  | blank _ _ _ ih => exact ih
  | @instruction _ _ _ _ _ _ _ shown _ _ _ _ _ ih =>
      obtain ⟨instructions, hinstructions⟩ := ih
      refine ⟨shown :: instructions, ?_⟩
      rw [List.map_cons, List.map_cons, hinstructions]

end Shown

/-! ## The statement column joined by line feeds -/

theorem spellsProgram_intercalate
    {listing : List ListingLine} (htile : ∀ line ∈ listing, line.IsTile) :
    SpellsProgram (outline listing) (String.intercalate "\n"
      (listing.map ListingLine.statementText)).toList := by
  induction listing with
  | nil => exact .nil
  | cons line listing ih =>
      obtain ⟨hline, hrest⟩ := List.forall_mem_cons.mp htile
      have hspelled := spellsProgramLine_statementText hline
      cases listing with
      | nil =>
          rw [List.map_singleton, String.intercalate_singleton]
          exact .last hspelled
      | cons next listing =>
          rw [List.map_cons, List.map_cons, String.intercalate_cons_cons,
            String.toList_append, String.toList_append, List.append_assoc]
          exact .line hspelled .feed (ih hrest)

/-- Where every line is decoded, the statement column consists of the texts of
the instructions. -/
theorem map_statementText
    {listing : List ListingLine} {instructions : List (Instruction Address)}
    (h : listing.map ListingLine.instruction = instructions.map some) :
    listing.map ListingLine.statementText =
      instructions.map Instruction.text := by
  induction listing generalizing instructions with
  | nil =>
      obtain rfl : instructions = [] := by simpa using h.symm
      rfl
  | cons line listing ih =>
      obtain ⟨instruction, instructions, rfl, hline, hrest⟩ :=
        List.map_eq_cons_iff.mp h.symm
      rw [List.map_cons, List.map_cons, ih hrest.symm,
        ListingLine.statementText, ← hline]

end Listing

/-! ## Assembled texts -/

namespace Outline

/-- The label table holds every label with its offset. -/
theorem Admissible.labelAt
    {outline : Outline} (h : Admissible 0 [] outline) {name : String}
    {offset : Nat} (hmem : (name, offset) ∈ labelOffsets 0 outline) :
    LabelAt (labelTable outline) name offset := by
  have hoffset : (UInt16.ofNat offset).toNat = offset :=
    UInt16.toNat_ofNat_of_lt' (h.reachable _ hmem)
  refine ⟨UInt16.ofNat offset, h.lookup_labelTable_iff.mpr ?_, hoffset⟩
  rwa [hoffset]

/-- The listing of an outline shows the lines that were read as it. -/
theorem shows_of_reads
    {labels : List (String × Address)} {position : String → Address}
    {sources : List SourceLine} {outline : Outline} {base : Nat}
    (hreads : sources.map ProgramLine.read = outline.map Except.ok)
    (hdata : ∀ source ∈ sources, source.isData = false)
    (hlabels : ∀ name offset, (name, offset) ∈ labelOffsets base outline →
      LabelAt labels name offset)
    (hresolve : ∀ written, .instruction written ∈ statements outline →
      written.resolve (Target.resolve labels) =
        .ok (written.retarget (Target.locate position))) :
    Listing.Shows labels base sources (Listing.linesFrom base
      ((statements outline).flatMap (Statement.bytes position))
        #[]).toList := by
  induction sources generalizing outline base with
  | nil =>
      obtain rfl : outline = [] := by simpa using hreads.symm
      rw [statements, List.filterMap_nil, List.flatMap_nil, Listing.linesFrom]
      exact .nil base
  | cons source sources ih =>
      rw [List.map_cons, eq_comm, List.map_eq_cons_iff] at hreads
      obtain ⟨line, outline, rfl, hread, hrest⟩ := hreads
      obtain ⟨hhere, hdata⟩ := List.forall_mem_cons.mp hdata
      have hstands : ∀ name ∈ line.labels, LabelAt labels name base := by
        intro name hname
        exact hlabels name base
          (List.mem_append_left _ (List.mem_map.mpr ⟨name, hname, rfl⟩))
      have hlater : ∀ name offset,
          (name, offset) ∈ labelOffsets (base + line.size) outline →
            LabelAt labels name offset := by
        intro name offset hmem
        exact hlabels name offset (List.mem_append_right _ hmem)
      rcases ProgramLine.read_cases hhere hread.symm with
        ⟨hwords, rfl⟩ | ⟨mnemonic, operands, written, hwords, hstatement, rfl⟩
      · have hothers := ih hrest.symm hdata hlater hresolve
        exact .blank hwords hstands hothers
      · have hfirst := hresolve written List.mem_cons_self
        have hothers := ih hrest.symm hdata hlater fun next hnext =>
          hresolve next (List.mem_cons_of_mem _ hnext)
        have hsize : (ProgramLine.mk source.labels
            (some (.instruction written))).size =
              (written.retarget (Target.locate position)).size :=
          (Instruction.size_retarget _ written).symm
        have hlines := Listing.toList_linesFrom_encode base
          (written.retarget (Target.locate position))
          ((statements outline).flatMap (Statement.bytes position))
        rw [hsize] at hothers
        exact hlines ▸ .instruction hwords hstands hstatement hfirst hothers

end Outline

/-- A text without raw data can be had back from its bytes.  The listing shows
its instructions in their order, each decoded, at its offset and with the
addresses of the labels that it names.  The texts of these instructions, joined
by line feeds or with one behind each, assemble to the same bytes, without
labels. -/
theorem listing_shows_source
    {source : String} {program : Program}
    (hassemble : assemble source = .ok program)
    (hdata : ∀ line ∈ Text.lines source.toList,
      (SourceLine.ofText line).isData = false) :
    Listing.Shows program.labels 0
      ((Text.lines source.toList).map SourceLine.ofText)
      (Listing.lines program.bytes) ∧
    ∃ instructions : List (Instruction Address),
      (Listing.lines program.bytes).map ListingLine.instruction =
        instructions.map some ∧
      assemble (String.intercalate "\n" (instructions.map Instruction.text)) =
        .ok ⟨program.bytes, []⟩ ∧
      assemble (Listing.instructionSource (Listing.lines program.bytes)) =
        .ok ⟨program.bytes, []⟩ := by
  obtain ⟨outline, houtline, hadmissible, hclosed, rfl⟩ :=
    assemble_eq_ok_iff.mp hassemble
  have hreads : ((Text.lines source.toList).map SourceLine.ofText).map
      ProgramLine.read = outline.map Except.ok := by
    rw [List.map_map]
    exact houtline
  have hshows : Listing.Shows (Outline.labelTable outline) 0
      ((Text.lines source.toList).map SourceLine.ofText)
      (Listing.lines (Outline.bytes outline)) :=
    Outline.shows_of_reads hreads (List.forall_mem_map.mpr hdata)
      (fun _ _ => hadmissible.labelAt)
      (fun _ => Outline.resolve_eq_assembled hadmissible.distinct hclosed)
  have htile := Listing.isTile_of_mem_lines (Outline.bytes outline)
  have hbytes := Listing.flatMap_bytes_lines (Outline.bytes outline)
  obtain ⟨instructions, hinstructions⟩ := hshows.exists_instructions
  have hjoined := Listing.assemble_of_spells htile hshows.namesRegisters
    (Listing.spellsProgram_intercalate htile)
  have hended := Listing.assemble_source htile hshows.namesRegisters
  rw [hbytes] at hjoined hended
  rw [Listing.map_statementText hinstructions] at hjoined
  refine ⟨hshows, instructions, hinstructions, hjoined, ?_⟩
  rw [Listing.instructionSource_eq, List.filter_eq_self.mpr ?_, hended]
  intro line hline
  have hmem : line.instruction ∈ instructions.map some := by
    rw [← hinstructions]
    exact List.mem_map.mpr ⟨line, hline, rfl⟩
  obtain ⟨instruction, -, hinstruction⟩ := List.mem_map.mp hmem
  rw [← hinstruction, Option.isSome_some]

/-- A loop with a label that is used before it is defined, a target that is a
number, and lines with a comment or labels only. -/
theorem listing_shows_source_loop :
    ∃ instructions : List (Instruction Address),
      (Listing.lines [1, 0, 1, 7, 0, 0, 10, 6, 0, 0]).map
        ListingLine.instruction = instructions.map some ∧
      assemble (String.intercalate "\n" (instructions.map Instruction.text)) =
        .ok ⟨[1, 0, 1, 7, 0, 0, 10, 6, 0, 0], []⟩ := by
  have hassemble :
      assemble "top: load r0 1 ; DB 7\r\n\nJZ\tR0, out\n JMP $0\nout:" =
        .ok ⟨[1, 0, 1, 7, 0, 0, 10, 6, 0, 0], [("out", 10), ("top", 0)]⟩ := by
    decide +kernel
  obtain ⟨-, instructions, hinstructions, hjoined, -⟩ :=
    listing_shows_source hassemble (by decide +kernel)
  exact ⟨instructions, hinstructions, hjoined⟩

end ByteMachine
