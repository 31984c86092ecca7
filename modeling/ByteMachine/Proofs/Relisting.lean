import ByteMachine.Proofs.Rendering
import ByteMachine.Proofs.Tiling

/-!
# Assembling a listing

The statement column of a listing is source text.  Assembling it gives the
listed bytes back, unless an instruction of the listing names a register that
the bank does not have: a byte string may hold any register number, source text
only those below eight.  The first such register is then what the assembler
complains about.
-/

namespace ByteMachine

/-! ## The statement column as source text -/

theorem spellsWords_intercalate
    {separator : String} (hgap : SourceLine.Gap separator.toList)
    (word : String) (words : List String) :
    SourceLine.SpellsWords (word :: words)
      (String.intercalate separator (word :: words)).toList := by
  induction words generalizing word with
  | nil => simpa using SourceLine.SpellsWords.single word
  | cons next words ih =>
      have hall := SourceLine.SpellsWords.cons word hgap (ih next)
      rw [String.intercalate_cons_cons, String.toList_append,
        String.toList_append, List.append_assoc]
      exact hall

theorem spellsWords_statement
    (mnemonic word : String) (words : List String) :
    SourceLine.SpellsWords (mnemonic :: word :: words)
      (mnemonic ++ " " ++
        String.intercalate ", " (word :: words)).toList := by
  have hgap : SourceLine.Gap [' '] := ⟨List.cons_ne_nil _ _, by simp⟩
  have hcomma : SourceLine.Gap ", ".toList := by decide
  have hall := SourceLine.SpellsWords.cons mnemonic hgap
    (spellsWords_intercalate hcomma word words)
  rw [String.toList_append, String.toList_append, List.append_assoc]
  exact hall

namespace ListingLine

/-- The words of the statement column. -/
def words (line : ListingLine) : List String :=
  match line.instruction with
  | some instruction =>
      instruction.opcode.mnemonic :: instruction.operandTexts
  | none =>
      "DB" :: line.bytes.map fun b => "0x" ++ Numeral.hexCapital 2 b.toNat

theorem spellsWords_statementText
    (line : ListingLine) (hne : line.bytes ≠ []) :
    SourceLine.SpellsWords line.words line.statementText.toList := by
  unfold words statementText
  cases line.instruction with
  | none =>
      obtain ⟨first, rest, hbytes⟩ := List.exists_cons_of_ne_nil hne
      rw [hbytes]
      exact spellsWords_statement "DB" _ _
  | some instruction =>
      simp only [Instruction.text]
      cases instruction.operandTexts with
      | nil => exact SourceLine.SpellsWords.single _
      | cons word words => exact spellsWords_statement _ word words

/-- The statement that a line of a listing stands for. -/
def statement (line : ListingLine) : Statement :=
  match line.instruction with
  | some instruction => .instruction (instruction.retarget Target.address)
  | none => .data line.bytes

theorem spellsBytes_hexCapital (bytes : List UInt8) :
    SpellsBytes bytes
      (bytes.map fun b => "0x" ++ Numeral.hexCapital 2 b.toNat) := by
  induction bytes with
  | nil => exact .nil
  | cons b bytes ih =>
      refine .cons ?_ ih
      rw [String.toList_append]
      exact .hex (Numeral.spells_hexCapital 2 b.toNat)

theorem spellsOperands_operandTexts (instruction : Instruction Address) :
    SpellsOperands (instruction.retarget Target.address)
      instruction.operandTexts := by
  have hregister := Operand.spellsRegister_registerText
  have haddress : ∀ target : Address,
      SpellsTarget (.address target) (Instruction.addressText target) :=
    fun target => .address (Operand.spellsNumber_addressText target)
  cases instruction with
  | halt => exact .halt
  | load register value =>
      exact .load (hregister register)
        (.decimal (Numeral.spells_decimal value.toNat))
  | arithmetic operation left right destination =>
      exact .arithmetic operation (hregister left) (hregister right)
        (hregister destination)
  | jump target => exact .jump (haddress target)
  | jumpIfZero register target =>
      exact .jumpIfZero (hregister register) (haddress target)
  | push register => exact .push (hregister register)
  | pop register => exact .pop (hregister register)
  | print register => exact .print (hregister register)

/-- The statement column spells the statement of the line. -/
theorem spellsStatement_words (line : ListingLine) :
    SpellsStatement line.statement line.words := by
  unfold statement words
  cases line.instruction with
  | none => exact .data rfl (spellsBytes_hexCapital line.bytes)
  | some instruction =>
      have hopcode : (instruction.retarget Target.address).opcode =
          instruction.opcode := by
        cases instruction <;> rfl
      refine .instruction ?_ (spellsOperands_operandTexts instruction)
      rw [hopcode]
      rfl

theorem target?_statement (line : ListingLine) (name : String) :
    line.statement.target? ≠ some (.label name) := by
  unfold statement
  cases line.instruction with
  | none => simp [Statement.target?]
  | some instruction =>
      cases instruction <;>
        simp [Statement.target?, Instruction.target?, Instruction.retarget]

theorem isWord_of_mem_words (line : ListingLine) :
    ∀ word ∈ line.words, SourceLine.IsWord word :=
  line.spellsStatement_words.isWord fun name hname =>
    absurd hname (line.target?_statement name)

theorem spellsLine_statementText
    {line : ListingLine} (h : line.IsTile) :
    SourceLine.SpellsLine [] line.words line.statementText.toList := by
  have hspelled := line.spellsWords_statementText h.ne_nil
  have hpadding : SourceLine.Padding [] := by
    intro c hc
    cases hc
  have hbody :=
    SourceLine.SpellsBody.statement hpadding hspelled hpadding
  exact ⟨_, [], hbody, .none, by simp⟩

/-- Whether all registers of the instruction, if there is one, are in the
bank. -/
def NamesRegisters (line : ListingLine) : Prop :=
  ∀ instruction, line.instruction = some instruction →
    ∀ r ∈ instruction.registers, r.toNat < 8

theorem wellFormed_statement
    {line : ListingLine} (htile : line.IsTile) (h : line.NamesRegisters) :
    line.statement.WellFormed := by
  refine ⟨?_, ?_, fun name hname =>
    absurd hname (line.target?_statement name)⟩
  · intro i hi
    unfold statement at hi
    cases hinstruction : line.instruction with
    | none => simp [hinstruction] at hi
    | some instruction =>
        simp only [hinstruction, Statement.instruction.injEq] at hi
        rw [← hi, Instruction.registers_retarget]
        exact h instruction hinstruction
  · intro bytes hbytes
    unfold statement at hbytes
    cases hinstruction : line.instruction with
    | none =>
        simp only [hinstruction, Statement.data.injEq] at hbytes
        rw [← hbytes]
        exact htile.ne_nil
    | some instruction => simp [hinstruction] at hbytes

theorem bytes_statement
    {line : ListingLine} (htile : line.IsTile)
    (position : String → Address) :
    line.statement.bytes position = line.bytes := by
  unfold statement
  cases hinstruction : line.instruction with
  | none => rfl
  | some instruction =>
      rw [htile.encode instruction hinstruction]
      cases instruction <;> rfl

end ListingLine

/-! ## Listings without foreign registers -/

namespace Listing

/-- The program that a listing stands for. -/
def outline (listing : List ListingLine) : Outline :=
  listing.map fun line => ⟨[], some line.statement⟩

theorem names_outline (listing : List ListingLine) :
    Outline.names (outline listing) = [] := by
  simp [Outline.names, outline]

theorem statements_outline (listing : List ListingLine) :
    Outline.statements (outline listing) =
      listing.map ListingLine.statement := by
  simp [Outline.statements, outline, List.filterMap_map]

theorem labelOffsets_outline (base : Nat) (listing : List ListingLine) :
    Outline.labelOffsets base (outline listing) = [] := by
  have hnames := Outline.map_fst_labelOffsets base (outline listing)
  rw [names_outline] at hnames
  exact List.map_eq_nil_iff.mp hnames

theorem wellFormed_outline
    {listing : List ListingLine} (htile : ∀ line ∈ listing, line.IsTile)
    (h : ∀ line ∈ listing, line.NamesRegisters) :
    Outline.WellFormed (outline listing) := by
  have hstatement : ∀ statement ∈ Outline.statements (outline listing),
      statement.WellFormed := by
    rw [statements_outline]
    intro statement hmem
    obtain ⟨line, hline, rfl⟩ := List.mem_map.mp hmem
    exact ListingLine.wellFormed_statement (htile line hline) (h line hline)
  refine ⟨?_, ?_, ?_, ?_, ?_, ?_⟩
  · simp [names_outline]
  · simp [names_outline]
  · simp [labelOffsets_outline]
  · rw [Outline.Closed, statements_outline]
    intro statement hmem target htarget
    obtain ⟨line, hline, rfl⟩ := List.mem_map.mp hmem
    cases target with
    | address value => trivial
    | label name => exact absurd htarget (line.target?_statement name)
  · intro i hmem
    exact (hstatement _ hmem).registers i rfl
  · intro bytes hmem
    exact (hstatement _ hmem).data bytes rfl

theorem source_cons (line : ListingLine) (listing : List ListingLine) :
    (source (line :: listing)).toList =
      line.statementText.toList ++ (['\n'] ++ (source listing).toList) := by
  simp [source, String.toList_join]

theorem spellsProgramLine_statementText
    {line : ListingLine} (htile : line.IsTile) :
    SpellsProgramLine ⟨[], some line.statement⟩ line.statementText.toList :=
  ⟨line.words, ListingLine.spellsLine_statementText htile,
    line.spellsStatement_words⟩

theorem spellsProgram_source
    {listing : List ListingLine} (htile : ∀ line ∈ listing, line.IsTile) :
    SpellsProgram (outline listing) (source listing).toList := by
  induction listing with
  | nil => exact .nil
  | cons line listing ih =>
      obtain ⟨hline, hrest⟩ := List.forall_mem_cons.mp htile
      rw [source_cons]
      exact .line (spellsProgramLine_statementText hline) .feed (ih hrest)

theorem bytes_outline
    {listing : List ListingLine} (htile : ∀ line ∈ listing, line.IsTile) :
    Outline.bytes (outline listing) = listing.flatMap ListingLine.bytes := by
  rw [Outline.bytes, statements_outline, List.flatMap_map]
  apply List.flatMap_congr
  intro line hline
  exact ListingLine.bytes_statement (htile line hline) _

/-- A text of a listing that names only registers of the bank assembles to the
bytes of the listing. -/
theorem assemble_of_spells
    {listing : List ListingLine} (htile : ∀ line ∈ listing, line.IsTile)
    (h : ∀ line ∈ listing, line.NamesRegisters) {text : String}
    (htext : SpellsProgram (outline listing) text.toList) :
    assemble text = .ok ⟨listing.flatMap ListingLine.bytes, []⟩ := by
  rw [assemble_of_spellsProgram (wellFormed_outline htile h) htext,
    bytes_outline htile, Outline.labelTable, labelOffsets_outline]
  rfl

theorem assemble_source
    {listing : List ListingLine} (htile : ∀ line ∈ listing, line.IsTile)
    (h : ∀ line ∈ listing, line.NamesRegisters) :
    assemble (source listing) =
      .ok ⟨listing.flatMap ListingLine.bytes, []⟩ :=
  assemble_of_spells htile h (spellsProgram_source htile)

/-- Leaving lines without an instruction out is listing the others only. -/
theorem instructionSource_eq (listing : List ListingLine) :
    instructionSource listing =
      source (listing.filter fun line => line.instruction.isSome) := by
  induction listing with
  | nil => rfl
  | cons line listing ih =>
      cases hinstruction : line.instruction with
      | none => simpa [instructionSource, hinstruction] using ih
      | some instruction =>
          have htext : line.statementText = instruction.text := by
            simp [ListingLine.statementText, hinstruction]
          rw [List.filter_cons_of_pos (by simp [hinstruction])]
          apply String.toList_injective
          rw [source_cons, ← ih, htext]
          simp [instructionSource, hinstruction, String.toList_join]

end Listing

/-! ## The first foreign register -/

theorem Operand.register_registerText (r : UInt8) :
    Operand.register (Instruction.registerText r) =
      if r.toNat < 8 then .ok r
      else .error (.invalidRegister (Instruction.registerText r)) :=
  Operand.register_of_spells (Operand.spellsRegister_registerText r)

/-- Operands are read up to the first foreign register. -/
theorem Statement.readOperands_of_foreignRegister
    {instruction : Instruction Address} {r : UInt8}
    (h : instruction.foreignRegister? = some r) :
    readOperands instruction.opcode instruction.operandTexts =
      .error (.invalidRegister (Instruction.registerText r)) := by
  cases instruction with
  | halt | jump =>
      simp [Instruction.foreignRegister?, Instruction.registers] at h
  | load first | jumpIfZero first | push first | pop first | print first =>
      simp only [Instruction.foreignRegister?, Instruction.registers,
        List.find?_singleton, Option.ite_none_right_eq_some,
        decide_eq_true_eq, Option.some.injEq] at h
      obtain ⟨hlarge, rfl⟩ := h
      simp [readOperands, Instruction.opcode, Instruction.operandTexts,
        Operand.register_registerText, Nat.not_lt.mpr hlarge]
  | arithmetic operation left right destination =>
      simp only [Instruction.foreignRegister?, Instruction.registers] at h
      simp only [readOperands, Instruction.opcode, Instruction.operandTexts,
        Operand.register_registerText]
      by_cases hleft : left.toNat < 8
      · by_cases hright : right.toNat < 8
        · by_cases hdestination : destination.toNat < 8
          · simp [hleft, hright, hdestination] at h
          · obtain rfl : destination = r := by
              simpa [hleft, hright, Nat.not_lt.mp hdestination] using h
            simp [hleft, hright, hdestination]
        · obtain rfl : right = r := by
            simpa [hleft, Nat.not_lt.mp hright] using h
          simp [hleft, hright]
      · obtain rfl : left = r := by simpa [Nat.not_lt.mp hleft] using h
        simp [hleft]

namespace ListingLine

/-- The first register of a line that the bank does not have. -/
def foreignRegister? (line : ListingLine) : Option UInt8 :=
  line.instruction.bind Instruction.foreignRegister?

theorem namesRegisters_iff (line : ListingLine) :
    line.NamesRegisters ↔ line.foreignRegister? = none := by
  unfold NamesRegisters foreignRegister?
  cases line.instruction with
  | none => simp
  | some instruction => simp [Instruction.foreignRegister?]

theorem read_words_of_foreignRegister
    {line : ListingLine} {r : UInt8} (h : line.foreignRegister? = some r) :
    ProgramLine.read ⟨[], line.words⟩ =
      .error (.invalidRegister (Instruction.registerText r)) := by
  obtain ⟨instruction, hinstruction, hforeign⟩ := Option.bind_eq_some_iff.mp h
  have hmnemonic : SameLetters instruction.opcode.mnemonic
      instruction.opcode.mnemonic := rfl
  have hread := Statement.readOperands_of_foreignRegister hforeign
  simp only [words, hinstruction, ProgramLine.read, Statement.read]
  rw [instruction.opcode.capitals_mnemonic,
    if_neg instruction.opcode.mnemonic_ne_data,
    Opcode.ofMnemonic?_of_sameLetters hmnemonic]
  simp [hread]

theorem read_words_of_namesRegisters
    {line : ListingLine} (htile : line.IsTile) (h : line.NamesRegisters) :
    ProgramLine.read ⟨[], line.words⟩ = .ok ⟨[], some line.statement⟩ :=
  ProgramLine.read_of_spells line.spellsStatement_words
    (wellFormed_statement htile h)

end ListingLine

namespace Layout

theorem addLines_append
    (number : Nat) (layout : Layout) (front back : List SourceLine) :
    addLines number layout (front ++ back) =
      addLines number layout front >>= fun layout =>
        addLines (number + front.length) layout back := by
  induction front generalizing number layout with
  | nil => rfl
  | cons source front ih =>
      rw [List.cons_append, addLines_cons, addLines_cons, bind_assoc]
      congr 1
      funext next
      rw [ih, List.length_cons, Nat.add_assoc, Nat.add_comm 1]

/-- What follows a line that is refused is not read. -/
theorem addLines_of_addLine_eq_error
    {number : Nat} {layout middle : Layout} {front : List SourceLine}
    {line : SourceLine} {error : AssemblyError}
    (hfront : addLines number layout front = .ok middle)
    (hline : addLine (number + front.length) middle line = .error error)
    (back : List SourceLine) :
    addLines number layout (front ++ line :: back) = .error error := by
  rw [addLines_append, hfront, Result.ok_bind, addLines_cons, hline,
    Result.error_bind]

theorem addLine_of_read_error
    {number : Nat} {layout : Layout} {words : List String}
    {complaint : Complaint}
    (h : ProgramLine.read ⟨[], words⟩ = .error complaint) :
    addLine number layout ⟨[], words⟩ = .error ⟨number, complaint⟩ := by
  cases words with
  | nil => cases h
  | cons mnemonic operands =>
      rw [addLine, List.foldlM_nil, Result.pure_eq_ok, Result.ok_bind]
      cases hread : Statement.read mnemonic operands with
      | ok statement => simp [ProgramLine.read, hread] at h
      | error other =>
          have hother : other = complaint := by
            simpa [ProgramLine.read, hread] using h
          simp only [hread, hother, Result.throw_eq_error]

end Layout

namespace Listing

theorem lines_source
    {listing : List ListingLine} (htile : ∀ line ∈ listing, line.IsTile) :
    (Text.lines (source listing).toList).map SourceLine.ofText =
      listing.map fun line => ⟨[], line.words⟩ := by
  induction listing with
  | nil =>
      rw [source, List.map_nil, String.join_nil, String.toList_empty,
        Text.lines_nil]
      rfl
  | cons line listing ih =>
      obtain ⟨hline, hrest⟩ := List.forall_mem_cons.mp htile
      have hspelled := ListingLine.spellsLine_statementText hline
      have hwords := line.isWord_of_mem_words
      have hfeed := hspelled.newline_not_mem (by simp) hwords
      rw [source_cons, List.singleton_append, Text.lines_append_newline hfeed,
        List.map_cons, List.map_cons, ih hrest,
        hspelled.ofText_eq (by simp) hwords]

/-- A foreign register behind lines without one is what the assembler complains
about. -/
theorem assemble_source_of_foreignRegister
    {front back : List ListingLine} {line : ListingLine} {r : UInt8}
    (htile : ∀ other ∈ front ++ line :: back, other.IsTile)
    (hfront : ∀ other ∈ front, other.NamesRegisters)
    (hline : line.foreignRegister? = some r) :
    assemble (source (front ++ line :: back)) =
      .error ⟨front.length + 1,
        .invalidRegister (Instruction.registerText r)⟩ := by
  have htileFront : ∀ other ∈ front, other.IsTile := fun other hother =>
    htile other (List.mem_append_left _ hother)
  have hread : Layout.addLines 1 {}
      (front.map fun line => ⟨[], line.words⟩) =
        .ok (Layout.extend 1 {} (outline front)) := by
    refine Layout.addLines_eq_ok_iff.mpr
      ⟨outline front, ?_, (wellFormed_outline htileFront hfront).admissible,
        rfl⟩
    rw [outline, List.map_map, List.map_map]
    apply List.map_congr_left
    intro other hother
    exact ListingLine.read_words_of_namesRegisters (htileFront other hother)
      (hfront other hother)
  have hcomplaint : Layout.ofText (source (front ++ line :: back)).toList =
      .error ⟨front.length + 1,
        .invalidRegister (Instruction.registerText r)⟩ := by
    rw [Layout.ofText_eq_addLines, lines_source htile, List.map_append,
      List.map_cons]
    apply Layout.addLines_of_addLine_eq_error hread
    rw [Layout.addLine_of_read_error
      (ListingLine.read_words_of_foreignRegister hline), List.length_map,
      Nat.add_comm 1]
  rw [assemble, hcomplaint, Result.error_bind]

/-- A listing names registers of the bank only, or there is a first line that
does not. -/
theorem namesRegisters_or_exists_first (listing : List ListingLine) :
    (∀ line ∈ listing, line.NamesRegisters) ∨
      ∃ front line back r, listing = front ++ line :: back ∧
        (∀ other ∈ front, other.NamesRegisters) ∧
        line.foreignRegister? = some r := by
  induction listing with
  | nil => exact Or.inl (by simp)
  | cons line listing ih =>
      cases hforeign : line.foreignRegister? with
      | some r => exact Or.inr ⟨[], line, listing, r, rfl, by simp, hforeign⟩
      | none =>
          have hline := line.namesRegisters_iff.mpr hforeign
          rcases ih with hall | ⟨front, other, back, r, rfl, hfront, hother⟩
          · exact Or.inl (List.forall_mem_cons.mpr ⟨hline, hall⟩)
          · exact Or.inr ⟨line :: front, other, back, r, rfl,
              List.forall_mem_cons.mpr ⟨hline, hfront⟩, hother⟩

end Listing

/-- The listing of any byte string, read as source text, assembles exactly when
its instructions name registers of the bank only.  The result is then the byte
string, without labels; otherwise the complaint is about the first foreign
register, on its line.  Without the lines that show no instruction the result
is that of the others. -/
theorem assemble_listing (bytes : List UInt8) :
    ((∃ program,
        assemble (Listing.source (Listing.lines bytes)) = .ok program) ↔
      ∀ line ∈ Listing.lines bytes, line.NamesRegisters) ∧
    (∀ program, assemble (Listing.source (Listing.lines bytes)) = .ok program →
      program.bytes = bytes ∧ program.labels = []) ∧
    (∀ error, assemble (Listing.source (Listing.lines bytes)) = .error error →
      ∃ front line back r, Listing.lines bytes = front ++ line :: back ∧
        (∀ other ∈ front, other.NamesRegisters) ∧
        line.foreignRegister? = some r ∧ error.line = front.length + 1 ∧
        error.complaint =
          .invalidRegister ("r" ++ Numeral.decimal r.toNat)) ∧
    ((∀ line ∈ Listing.lines bytes, line.NamesRegisters) →
      assemble (Listing.instructionSource (Listing.lines bytes)) =
        .ok ⟨((Listing.lines bytes).filter fun line =>
          line.instruction.isSome).flatMap ListingLine.bytes, []⟩) := by
  have htile := Listing.isTile_of_mem_lines bytes
  have hpart : (∀ line ∈ Listing.lines bytes, line.NamesRegisters) →
      assemble (Listing.instructionSource (Listing.lines bytes)) =
        .ok ⟨((Listing.lines bytes).filter fun line =>
          line.instruction.isSome).flatMap ListingLine.bytes, []⟩ := by
    intro hall
    rw [Listing.instructionSource_eq]
    apply Listing.assemble_source
    · intro line hline
      exact htile line (List.mem_of_mem_filter hline)
    · intro line hline
      exact hall line (List.mem_of_mem_filter hline)
  rcases Listing.namesRegisters_or_exists_first (Listing.lines bytes) with
    hall | ⟨front, line, back, r, hlines, hfront, hforeign⟩
  · have hassemble := Listing.assemble_source htile hall
    rw [Listing.flatMap_bytes_lines] at hassemble
    refine ⟨⟨fun _ => hall, fun _ => ⟨_, hassemble⟩⟩, ?_, ?_, hpart⟩
    · intro program hprogram
      obtain rfl := Except.ok.inj (hassemble.symm.trans hprogram)
      exact ⟨rfl, rfl⟩
    · intro error herror
      rw [hassemble] at herror
      cases herror
  · rw [hlines] at htile
    have hassemble :=
      Listing.assemble_source_of_foreignRegister htile hfront hforeign
    rw [← hlines] at hassemble
    refine ⟨⟨?_, ?_⟩, ?_, ?_, hpart⟩
    · rintro ⟨program, hprogram⟩
      rw [hassemble] at hprogram
      cases hprogram
    · intro hall
      have hline := hall line (by simp [hlines])
      rw [line.namesRegisters_iff.mp hline] at hforeign
      cases hforeign
    · intro program hprogram
      rw [hassemble] at hprogram
      cases hprogram
    · intro error herror
      obtain rfl := Except.error.inj (hassemble.symm.trans herror)
      exact ⟨front, line, back, r, hlines, hfront, hforeign, rfl, rfl⟩

end ByteMachine
