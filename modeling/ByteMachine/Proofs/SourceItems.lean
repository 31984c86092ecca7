import ByteMachine.Proofs.Boundaries

/-!
# What the lines of a source text say

A line of source text defines labels, holds at most one statement and, where
that is a jump, names a target.  Here each of these is read off the line alone:
`SourceLine.Defines` speaks of colons in the text, `SourceLine.statement?` and
`SourceLine.jumpWord?` of its words.  Where the lines can be read, they agree
with the outline that is read from them, so that what is known of outlines can
be said of texts.
-/

namespace ByteMachine

/-- The lines of a source text, each cut into its parts. -/
def sourceLines (source : String) : List SourceLine :=
  (Text.lines source.toList).map SourceLine.ofText

/-! ## Labels -/

namespace SourceLine

/-- `name` stands before a colon of the line that is in no comment, with or
without blanks around it, and behind the colon before it, if there is one. -/
inductive Defines : List Char → String → Prop
  | first {part rest : List Char}
      (hcolon : ':' ∉ part) (hcomment : ';' ∉ part) :
      Defines (part ++ ':' :: rest) (String.ofList (Text.trim part))
  | later {part rest : List Char} {name : String} (hcolon : ':' ∉ part)
      (hcomment : ';' ∉ part) (hrest : Defines rest name) :
      Defines (part ++ ':' :: rest) name

/-- A line has a colon in front of any comment, or no labels. -/
theorem exists_colon_or_labels_eq_nil (cs : List Char) :
    (∃ part rest, cs = part ++ ':' :: rest ∧ ':' ∉ part ∧ ';' ∉ part) ∨
      (ofText cs).labels = [] := by
  by_cases hcomment : ';' ∈ cs
  · obtain ⟨body, text, rfl, hbody⟩ := List.eq_append_cons_of_mem hcomment
    by_cases hcolon : ':' ∈ body
    · obtain ⟨part, rest, rfl, hpart⟩ := List.eq_append_cons_of_mem hcolon
      refine .inl ⟨part, rest ++ ';' :: text, ?_, hpart, ?_⟩
      · rw [List.append_assoc, List.cons_append]
      · exact fun hmem => hbody (List.mem_append_left _ hmem)
    · right
      rw [ofText_append_comment, ofText_of_not_mem hcolon hbody]
  · by_cases hcolon : ':' ∈ cs
    · obtain ⟨part, rest, rfl, hpart⟩ := List.eq_append_cons_of_mem hcolon
      refine .inl ⟨part, rest, rfl, hpart, ?_⟩
      exact fun hmem => hcomment (List.mem_append_left _ hmem)
    · right
      rw [ofText_of_not_mem hcolon hcomment]

/-- The labels of a line are the names that it defines. -/
theorem mem_labels_ofText_iff {cs : List Char} {name : String} :
    name ∈ (ofText cs).labels ↔ Defines cs name := by
  constructor
  · -- Each label is followed by a shorter line that holds the others.
    intro hname
    induction hn : cs.length using Nat.strongRecOn generalizing cs with
    | ind n ih =>
        rcases exists_colon_or_labels_eq_nil cs with
          ⟨part, rest, rfl, hcolon, hcomment⟩ | hnil
        · rw [ofText_append_colon hcolon hcomment, List.mem_cons] at hname
          rcases hname with rfl | hname
          · exact .first hcolon hcomment
          · have hshorter : rest.length < n := by
              rw [← hn, List.length_append, List.length_cons]
              omega
            exact .later hcolon hcomment (ih _ hshorter hname rfl)
        · rw [hnil] at hname
          cases hname
  · intro h
    induction h with
    | first hcolon hcomment =>
        rw [ofText_append_colon hcolon hcomment]
        exact List.mem_cons_self
    | later hcolon hcomment _ ih =>
        rw [ofText_append_colon hcolon hcomment]
        exact List.mem_cons_of_mem _ ih

theorem exists_mem_labels_iff {source name : String} :
    (∃ line ∈ sourceLines source, name ∈ line.labels) ↔
      ∃ line ∈ Text.lines source.toList, Defines line name := by
  simp only [← mem_labels_ofText_iff]
  constructor
  · rintro ⟨line, hline, hname⟩
    obtain ⟨text, htext, rfl⟩ := List.mem_map.mp hline
    exact ⟨text, htext, hname⟩
  · rintro ⟨text, htext, hname⟩
    exact ⟨_, List.mem_map.mpr ⟨text, htext, rfl⟩, hname⟩

/-! ## Statements -/

/-- The statement on a line, if its words can be read as one. -/
def statement? (source : SourceLine) : Option Statement :=
  match source.words with
  | [] => none
  | mnemonic :: operands => (Statement.read mnemonic operands).toOption

theorem statement?_eq_some_iff
    {source : SourceLine} {statement : Statement} :
    source.statement? = some statement ↔
      ∃ mnemonic operands, source.words = mnemonic :: operands ∧
        Statement.read mnemonic operands = .ok statement := by
  rw [statement?]
  split
  case h_1 hwords => simp [hwords]
  case h_2 mnemonic operands hwords =>
    rw [Result.toOption_eq_some_iff]
    constructor
    · exact fun hread => ⟨mnemonic, operands, hwords, hread⟩
    · rintro ⟨_, _, hother, hread⟩
      obtain ⟨rfl, rfl⟩ := List.cons.inj (hwords.symm.trans hother)
      exact hread

/-- The number of bytes that the statements on some lines take. -/
def encodedSize (sources : List SourceLine) : Nat :=
  Statement.totalSize (sources.filterMap statement?)

/-- The word for the target on a line with a jump. -/
def jumpWord? (source : SourceLine) : Option String :=
  match source.words with
  | [mnemonic, word] =>
      if Text.capitals mnemonic = "JMP" then some word else none
  | [mnemonic, _, word] =>
      if Text.capitals mnemonic = "JZ" then some word else none
  | _ => none

theorem jumpWord?_eq_some_iff
    {source : SourceLine} {mnemonic : String} {operands : List String}
    (hwords : source.words = mnemonic :: operands) {name : String} :
    source.jumpWord? = some name ↔
      Text.capitals mnemonic = "JMP" ∧ operands = [name] ∨
        Text.capitals mnemonic = "JZ" ∧ ∃ r, operands = [r, name] := by
  rw [jumpWord?, hwords]
  match operands with
  | [] => simp
  | [word] => simp
  | [register, word] => simp
  | _ :: _ :: _ :: _ => simp

theorem words_ne_nil_of_jumpWord?
    {source : SourceLine} {name : String} (h : source.jumpWord? = some name) :
    source.words ≠ [] := by
  intro hwords
  rw [jumpWord?, hwords] at h
  cases h

end SourceLine

/-! ## Jump targets -/

theorem Operand.target_eq_label_iff (word name : String) :
    Operand.target word = .ok (.label name) ↔
      word = name ∧ Operand.looksNumeric name = false := by
  rw [Operand.target]
  by_cases hnumeric : Operand.looksNumeric word = true
  · rw [if_pos hnumeric, Result.map_eq_ok_iff]
    constructor
    · rintro ⟨value, -, hvalue⟩
      cases hvalue
    · rintro ⟨rfl, hname⟩
      rw [hnumeric] at hname
      cases hname
  · rw [if_neg hnumeric, Except.ok.injEq, Target.label.injEq]
    constructor
    · rintro rfl
      exact ⟨rfl, Bool.not_eq_true _ ▸ hnumeric⟩
    · exact fun h => h.1

theorem Opcode.capitals_of_ofMnemonic?
    {word : String} {operation : Opcode}
    (h : Opcode.ofMnemonic? word = some operation) :
    Text.capitals word = operation.mnemonic := by
  have hfound := List.find?_some h
  exact (of_decide_eq_true hfound).symm

theorem Opcode.mnemonic_eq_jump_iff {operation : Opcode} :
    operation.mnemonic = "JMP" ↔ operation = .jump := by
  rcases operation with _ | _ | (_ | _ | _ | _) | _ | _ | _ | _ | _ <;> decide

theorem Opcode.mnemonic_eq_jumpIfZero_iff {operation : Opcode} :
    operation.mnemonic = "JZ" ↔ operation = .jumpIfZero := by
  rcases operation with _ | _ | (_ | _ | _ | _) | _ | _ | _ | _ | _ <;> decide

/-- Only jumps have a target, and it is a label when its word does not look like
a number. -/
theorem Statement.target?_of_readOperands
    {operation : Opcode} {words : List String}
    {instruction : Instruction Target}
    (h : readOperands operation words = .ok instruction) (name : String) :
    instruction.target? = some (.label name) ↔
      Operand.looksNumeric name = false ∧
        (operation = .jump ∧ words = [name] ∨
          operation = .jumpIfZero ∧ ∃ r, words = [r, name]) := by
  unfold readOperands at h
  split at h
  case h_1 =>
    obtain rfl := Except.ok.inj h
    simp [Instruction.target?]
  case h_2 =>
    simp only [Result.bind_eq_ok_iff] at h
    obtain ⟨r, -, value, -, hload⟩ := h
    obtain rfl := Except.ok.inj hload
    simp [Instruction.target?]
  case h_3 =>
    simp only [Result.bind_eq_ok_iff] at h
    obtain ⟨left, -, right, -, destination, -, hall⟩ := h
    obtain rfl := Except.ok.inj hall
    simp [Instruction.target?]
  case h_4 word =>
    obtain ⟨target, htarget, hjump⟩ := Result.bind_eq_ok_iff.mp h
    obtain rfl := Except.ok.inj hjump
    have hlabel := Operand.target_eq_label_iff word name
    rw [htarget, Except.ok.injEq] at hlabel
    simp [Instruction.target?, hlabel, and_comm]
  case h_5 register word =>
    simp only [Result.bind_eq_ok_iff] at h
    obtain ⟨r, -, target, htarget, hjump⟩ := h
    obtain rfl := Except.ok.inj hjump
    have hlabel := Operand.target_eq_label_iff word name
    rw [htarget, Except.ok.injEq] at hlabel
    simp [Instruction.target?, hlabel, and_comm]
  case h_6 | h_7 | h_8 =>
    obtain ⟨r, -, hsingle⟩ := Result.bind_eq_ok_iff.mp h
    obtain rfl := Except.ok.inj hsingle
    simp [Instruction.target?]
  case h_9 => split at h <;> cases h

/-- The target of a statement is a label when the word for it does not look like
a number. -/
theorem SourceLine.target?_eq_label_iff
    {source : SourceLine} {statement : Statement}
    (h : source.statement? = some statement) (name : String) :
    statement.target? = some (.label name) ↔
      source.jumpWord? = some name ∧ Operand.looksNumeric name = false := by
  obtain ⟨mnemonic, operands, hwords, hread⟩ := statement?_eq_some_iff.mp h
  rw [jumpWord?_eq_some_iff hwords]
  rw [Statement.read] at hread
  split at hread
  case isTrue hdata =>
    obtain ⟨bytes, -, rfl⟩ := Result.map_eq_ok_iff.mp hread
    simp [hdata, Statement.target?, Statement.dataMnemonic]
  case isFalse =>
    split at hread
    case h_1 => cases hread
    case h_2 operation hoperation =>
      obtain ⟨instruction, hoperands, rfl⟩ := Result.map_eq_ok_iff.mp hread
      rw [Statement.target?, Statement.target?_of_readOperands hoperands,
        Opcode.capitals_of_ofMnemonic? hoperation,
        Opcode.mnemonic_eq_jump_iff, Opcode.mnemonic_eq_jumpIfZero_iff,
        and_comm]

/-! ## Lines that can be read -/

namespace ProgramLine

theorem labels_of_read
    {source : SourceLine} {line : ProgramLine} (h : read source = .ok line) :
    line.labels = source.labels := by
  rw [read] at h
  split at h
  · obtain rfl := Except.ok.inj h
    rfl
  · obtain ⟨statement, -, rfl⟩ := Result.map_eq_ok_iff.mp h
    rfl

theorem statement_of_read
    {source : SourceLine} {line : ProgramLine} (h : read source = .ok line) :
    line.statement = source.statement? := by
  rw [read] at h
  split at h
  case h_1 hwords =>
    obtain rfl := Except.ok.inj h
    rw [SourceLine.statement?, hwords]
  case h_2 mnemonic operands hwords =>
    obtain ⟨statement, hread, rfl⟩ := Result.map_eq_ok_iff.mp h
    exact (SourceLine.statement?_eq_some_iff.mpr
      ⟨mnemonic, operands, hwords, hread⟩).symm

/-- A line with words that can be read holds a statement. -/
theorem exists_statement_of_read
    {source : SourceLine} {line : ProgramLine} (h : read source = .ok line)
    (hwords : source.words ≠ []) :
    ∃ statement, source.statement? = some statement := by
  rw [← statement_of_read h]
  rw [read] at h
  split at h
  case h_1 hnil => exact absurd hnil hwords
  case h_2 =>
    obtain ⟨statement, -, rfl⟩ := Result.map_eq_ok_iff.mp h
    exact ⟨statement, rfl⟩

/-- A jump to a word that does not look like a number is a statement with that
label for its target. -/
theorem exists_jump_of_read
    {source : SourceLine} {line : ProgramLine} (h : read source = .ok line)
    {name : String} (hword : source.jumpWord? = some name)
    (hname : Operand.looksNumeric name = false) :
    ∃ statement, source.statement? = some statement ∧
      statement.target? = some (.label name) := by
  obtain ⟨statement, hstatement⟩ := exists_statement_of_read h
    (SourceLine.words_ne_nil_of_jumpWord? hword)
  exact ⟨statement, hstatement,
    (SourceLine.target?_eq_label_iff hstatement name).mpr ⟨hword, hname⟩⟩

end ProgramLine

namespace Outline

variable {sources : List SourceLine} {outline : Outline}

theorem IsOutlineOf.reads
    {source : String} (h : IsOutlineOf outline source.toList) :
    (sourceLines source).map ProgramLine.read = outline.map .ok := by
  rw [sourceLines, List.map_map]
  exact h

theorem names_of_reads
    (h : sources.map ProgramLine.read = outline.map .ok) :
    names outline = sources.flatMap SourceLine.labels := by
  induction sources generalizing outline with
  | nil =>
      obtain rfl : outline = [] := by simpa using h.symm
      rfl
  | cons source sources ih =>
      obtain ⟨line, outline, rfl, hline, hrest⟩ :=
        List.map_eq_cons_iff.mp h.symm
      rw [names_cons, List.flatMap_cons, ih hrest.symm,
        ProgramLine.labels_of_read hline.symm]

theorem mem_names_iff_of_reads
    {source name : String}
    (h : (sourceLines source).map ProgramLine.read = outline.map .ok) :
    name ∈ names outline ↔
      ∃ line ∈ Text.lines source.toList, SourceLine.Defines line name := by
  rw [names_of_reads h, List.mem_flatMap]
  exact SourceLine.exists_mem_labels_iff

theorem statements_of_reads
    (h : sources.map ProgramLine.read = outline.map .ok) :
    statements outline = sources.filterMap SourceLine.statement? := by
  induction sources generalizing outline with
  | nil =>
      obtain rfl : outline = [] := by simpa using h.symm
      rfl
  | cons source sources ih =>
      obtain ⟨line, outline, rfl, hline, hrest⟩ :=
        List.map_eq_cons_iff.mp h.symm
      have hothers := ih hrest.symm
      rw [statements] at hothers ⊢
      rw [List.filterMap_cons, List.filterMap_cons, hothers,
        ProgramLine.statement_of_read hline.symm]

theorem size_of_reads
    (h : sources.map ProgramLine.read = outline.map .ok) :
    size outline = SourceLine.encodedSize sources := by
  rw [size_eq_totalSize, statements_of_reads h, SourceLine.encodedSize]

/-- Where a text is cut, its outline is cut as well. -/
theorem exists_cut_of_reads
    {front back : List SourceLine} {line : SourceLine}
    (h : (front ++ line :: back).map ProgramLine.read = outline.map .ok) :
    ∃ before here after, outline = before ++ here :: after ∧
      front.map ProgramLine.read = before.map .ok ∧
      ProgramLine.read line = .ok here := by
  rw [List.map_append, List.map_cons, eq_comm, List.map_eq_append_iff] at h
  obtain ⟨before, later, rfl, hfront, hlater⟩ := h
  obtain ⟨here, after, rfl, hhere, -⟩ := List.map_eq_cons_iff.mp hlater
  exact ⟨before, here, after, rfl, hfront.symm, hhere.symm⟩

/-- Where an outline is cut, the text is cut as well. -/
theorem exists_lines_of_cut
    {before after : Outline} {here : ProgramLine}
    (h : sources.map ProgramLine.read = (before ++ here :: after).map .ok) :
    ∃ front line back, sources = front ++ line :: back ∧
      front.map ProgramLine.read = before.map .ok ∧
      ProgramLine.read line = .ok here := by
  rw [List.map_append, List.map_cons, List.map_eq_append_iff] at h
  obtain ⟨front, later, rfl, hfront, hlater⟩ := h
  obtain ⟨line, back, rfl, hline, -⟩ := List.map_eq_cons_iff.mp hlater
  exact ⟨front, line, back, rfl, hfront, hline⟩

end Outline

end ByteMachine
