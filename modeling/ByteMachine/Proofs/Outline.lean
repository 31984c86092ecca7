import ByteMachine.Assembly.Program
import ByteMachine.Proofs.Operands

/-!
# Outlines of programs

Once every line of a text has been read, what is left of it is an outline: for
each line its labels and the statement on it.  This module says what the two
passes of the assembler make of an outline.  The first pass accepts an outline
exactly when its labels are well named, defined once and at addresses of
sixteen bits; the second one when every label that is used is defined.  Offsets
are defined by recursion on the outline, without an accumulator, so that they
can be compared with what the passes compute.
-/

namespace ByteMachine

/-- A line of a program that has been read. -/
structure ProgramLine where
  labels : List String
  statement : Option Statement
  deriving DecidableEq, Repr

/-- A program line by line. -/
abbrev Outline := List ProgramLine

namespace ProgramLine

/-- The number of bytes that a line puts into the image. -/
def size (line : ProgramLine) : Nat :=
  (line.statement.map Statement.size).getD 0

/-- Read the statement of a line that has been cut into its parts. -/
def read (source : SourceLine) : Except Complaint ProgramLine :=
  match source.words with
  | [] => .ok ⟨source.labels, none⟩
  | mnemonic :: operands =>
      (Statement.read mnemonic operands).map fun statement =>
        ⟨source.labels, some statement⟩

end ProgramLine

namespace Outline

/-- The number of bytes of a program. -/
def size : Outline → Nat
  | [] => 0
  | line :: rest => line.size + size rest

/-- The names of all labels, in the order of their definition. -/
def names (outline : Outline) : List String :=
  outline.flatMap ProgramLine.labels

/-- The statements of a program. -/
def statements (outline : Outline) : List Statement :=
  outline.filterMap ProgramLine.statement

/-- The labels of a program that starts at offset `base`, each with the offset
of what follows it. -/
def labelOffsets (base : Nat) : Outline → List (String × Nat)
  | [] => []
  | line :: rest =>
      line.labels.map (fun name => (name, base)) ++
        labelOffsets (base + line.size) rest

/-- The statements of a program that starts at offset `base` and at line
`number`, each with its place. -/
def placements (number base : Nat) : Outline → List Placed
  | [] => []
  | line :: rest =>
      line.statement.toList.map (fun statement => ⟨number, base, statement⟩) ++
        placements (number + 1) (base + line.size) rest

/-- What makes an outline acceptable behind `base` bytes of a program in which
the labels `known` are defined. -/
structure Admissible (base : Nat) (known : List String) (outline : Outline) :
    Prop where
  named : ∀ name ∈ names outline, isLabelName name = true
  distinct : (names outline).Nodup
  fresh : ∀ name ∈ names outline, name ∉ known
  reachable : ∀ entry ∈ labelOffsets base outline, entry.2 < UInt16.size

theorem size_cons (line : ProgramLine) (outline : Outline) :
    size (line :: outline) = line.size + size outline := rfl

theorem names_cons (line : ProgramLine) (outline : Outline) :
    names (line :: outline) = line.labels ++ names outline := by
  simp [names]

theorem map_fst_labelOffsets (base : Nat) (outline : Outline) :
    (labelOffsets base outline).map Prod.fst = names outline := by
  induction outline generalizing base with
  | nil => rfl
  | cons line rest ih =>
      rw [labelOffsets, List.map_append, ih, names_cons, List.map_map]
      simp [Function.comp_def]

theorem exists_mem_labelOffsets
    {outline : Outline} {name : String} (h : name ∈ names outline) :
    ∃ offset, (name, offset) ∈ labelOffsets 0 outline := by
  rw [← map_fst_labelOffsets 0] at h
  obtain ⟨⟨_, offset⟩, hentry, rfl⟩ := List.mem_map.mp h
  exact ⟨offset, hentry⟩

theorem map_statement_placements (number base : Nat) (outline : Outline) :
    (placements number base outline).map Placed.statement =
      statements outline := by
  induction outline generalizing number base with
  | nil => rfl
  | cons line rest ih =>
      rw [placements, List.map_append, ih]
      cases hstatement : line.statement <;> simp [statements, hstatement]

/-- A label stands at the size of the lines in front of its own. -/
theorem mem_labelOffsets_iff
    {base offset : Nat} {name : String} {outline : Outline} :
    (name, offset) ∈ labelOffsets base outline ↔
      ∃ front line back, outline = front ++ line :: back ∧
        name ∈ line.labels ∧ offset = base + size front := by
  induction outline generalizing base with
  | nil => simp [labelOffsets]
  | cons line rest ih =>
      rw [labelOffsets, List.mem_append, ih]
      constructor
      · rintro (hhere | ⟨front, other, back, rfl, hname, rfl⟩)
        · obtain ⟨other, hname, heq⟩ := List.mem_map.mp hhere
          obtain ⟨rfl, rfl⟩ := Prod.mk.inj heq
          exact ⟨[], line, rest, rfl, hname, rfl⟩
        · refine ⟨line :: front, other, back, rfl, hname, ?_⟩
          rw [size_cons, Nat.add_assoc]
      · rintro ⟨front, other, back, houtline, hname, rfl⟩
        cases front with
        | nil =>
            obtain ⟨rfl, rfl⟩ := List.cons.inj houtline
            exact Or.inl (List.mem_map.mpr ⟨name, hname, rfl⟩)
        | cons head front =>
            obtain ⟨rfl, rfl⟩ := List.cons.inj houtline
            refine Or.inr ⟨front, other, back, rfl, hname, ?_⟩
            rw [size_cons, Nat.add_assoc]

/-- A statement is placed on its line, at the size of the lines in front. -/
theorem mem_placements_iff
    {number base : Nat} {placed : Placed} {outline : Outline} :
    placed ∈ placements number base outline ↔
      ∃ front line back, outline = front ++ line :: back ∧
        line.statement = some placed.statement ∧
        placed.line = number + front.length ∧
        placed.address = base + size front := by
  induction outline generalizing number base with
  | nil => simp [placements]
  | cons line rest ih =>
      rw [placements, List.mem_append, ih]
      constructor
      · rintro (hhere | ⟨front, other, back, rfl, hstatement, hline, haddress⟩)
        · obtain ⟨statement, hstatement, rfl⟩ := List.mem_map.mp hhere
          exact ⟨[], line, rest, rfl, Option.mem_toList.mp hstatement, rfl, rfl⟩
        · refine ⟨line :: front, other, back, rfl, hstatement, ?_, ?_⟩
          · rw [hline, List.length_cons]
            omega
          · rw [haddress, size_cons, Nat.add_assoc]
      · rintro ⟨front, other, back, houtline, hstatement, hline, haddress⟩
        cases front with
        | nil =>
            obtain ⟨rfl, rfl⟩ := List.cons.inj houtline
            refine .inl (List.mem_map.mpr
              ⟨placed.statement, Option.mem_toList.mpr hstatement, ?_⟩)
            rw [← show placed.line = number from hline,
              ← show placed.address = base from haddress]
        | cons head front =>
            obtain ⟨rfl, rfl⟩ := List.cons.inj houtline
            refine .inr ⟨front, other, back, rfl, hstatement, ?_, ?_⟩
            · rw [hline, List.length_cons]
              omega
            · rw [haddress, size_cons, Nat.add_assoc]

/-- Acceptance is checked line by line. -/
theorem admissible_cons_iff
    {base : Nat} {known : List String} {line : ProgramLine}
    {outline : Outline} :
    Admissible base known (line :: outline) ↔
      (∀ name ∈ line.labels, isLabelName name = true) ∧ line.labels.Nodup ∧
        (∀ name ∈ line.labels, name ∉ known) ∧
        (line.labels ≠ [] → base < UInt16.size) ∧
        Admissible (base + line.size) (line.labels.reverse ++ known)
          outline := by
  constructor
  · intro h
    have hdistinct := h.distinct
    rw [names_cons, List.nodup_append] at hdistinct
    refine ⟨?_, hdistinct.1, ?_, ?_, ?_, hdistinct.2.1, ?_, ?_⟩
    · intro name hname
      exact h.named name (by simp [names_cons, hname])
    · intro name hname
      exact h.fresh name (by simp [names_cons, hname])
    · intro hne
      obtain ⟨name, more, hlabels⟩ := List.exists_cons_of_ne_nil hne
      exact h.reachable (name, base) (by simp [labelOffsets, hlabels])
    · intro name hname
      exact h.named name (by simp [names_cons, hname])
    · intro name hname hknown
      rw [List.mem_append, List.mem_reverse] at hknown
      rcases hknown with hlabel | hknown
      · exact hdistinct.2.2 name hlabel name hname rfl
      · exact h.fresh name (by simp [names_cons, hname]) hknown
    · intro entry hentry
      exact h.reachable entry (by simp [labelOffsets, hentry])
  · rintro ⟨hnamed, hnodup, hfresh, hbase, h⟩
    refine ⟨?_, ?_, ?_, ?_⟩
    · intro name hname
      rw [names_cons, List.mem_append] at hname
      exact hname.elim (hnamed name) (h.named name)
    · rw [names_cons, List.nodup_append]
      refine ⟨hnodup, h.distinct, ?_⟩
      rintro name hlabel other hother rfl
      exact h.fresh name hother (by simp [hlabel])
    · intro name hname
      rw [names_cons, List.mem_append] at hname
      rcases hname with hlabel | hother
      · exact hfresh name hlabel
      · intro hknown
        exact h.fresh name hother (by simp [hknown])
    · intro entry hentry
      rw [labelOffsets, List.mem_append] at hentry
      rcases hentry with hhere | hlater
      · obtain ⟨name, hname, rfl⟩ := List.mem_map.mp hhere
        exact hbase (List.ne_nil_of_mem hname)
      · exact h.reachable entry hlater

end Outline

/-! ## The first pass -/

theorem lookup_isSome_iff_mem_keys
    {β : Type} {entries : List (String × β)} {name : String} :
    (entries.lookup name).isSome = true ↔ name ∈ entries.map Prod.fst := by
  simp [List.lookup_isSome_iff]

namespace Layout

/-- The names of the labels defined so far. -/
def known (layout : Layout) : List String :=
  layout.labels.map Prod.fst

/-- The layout after further lines of which the first has the given number. -/
def extend (number : Nat) (layout : Layout) (outline : Outline) : Layout where
  labels :=
    ((Outline.labelOffsets layout.size outline).map fun entry =>
      (entry.1, UInt16.ofNat entry.2)).reverse ++ layout.labels
  placed :=
    layout.placed ++ (Outline.placements number layout.size outline).toArray
  size := layout.size + Outline.size outline

/-- Read several lines of which the first has the given number. -/
def addLines (number : Nat) (layout : Layout) (sources : List SourceLine) :
    Except AssemblyError Layout :=
  (sources.zipIdx number).foldlM
    (fun layout numbered => addLine numbered.2 layout numbered.1) layout

theorem ofText_eq_addLines (cs : List Char) :
    ofText cs = addLines 1 {} ((Text.lines cs).map SourceLine.ofText) := by
  rw [ofText, addLines, List.zipIdx_map, List.foldlM_map]
  rfl

theorem addLines_cons
    (number : Nat) (layout : Layout) (source : SourceLine)
    (sources : List SourceLine) :
    addLines number layout (source :: sources) =
      addLine number layout source >>= fun layout =>
        addLines (number + 1) layout sources := by
  rw [addLines, List.zipIdx_cons, List.foldlM_cons]
  rfl

theorem lookup_isSome_iff_mem_known {layout : Layout} {name : String} :
    (layout.labels.lookup name).isSome = true ↔ name ∈ layout.known :=
  lookup_isSome_iff_mem_keys

theorem define_eq_ok_iff
    {number : Nat} {layout next : Layout} {name : String} :
    define number layout name = .ok next ↔
      isLabelName name = true ∧ name ∉ layout.known ∧
        layout.size < UInt16.size ∧
        next = { layout with
          labels := (name, UInt16.ofNat layout.size) :: layout.labels } := by
  rw [define]
  by_cases hname : isLabelName name = true
  · rw [if_neg (by simp [hname])]
    by_cases hknown : name ∈ layout.known
    · rw [if_pos (lookup_isSome_iff_mem_known.mpr hknown)]
      simp [hknown]
    · rw [if_neg (mt lookup_isSome_iff_mem_known.mp hknown)]
      by_cases hsize : layout.size < UInt16.size
      · rw [if_pos hsize]
        constructor
        · intro h
          exact ⟨hname, hknown, hsize, (Except.ok.inj h).symm⟩
        · rintro ⟨-, -, -, rfl⟩
          rfl
      · rw [if_neg hsize]
        simp [hsize]
  · rw [if_pos (by simp [hname])]
    simp [hname]

/-- The labels of one line are defined one behind the other at the same
address. -/
theorem foldlM_define_eq_ok_iff
    {number : Nat} {layout next : Layout} {labels : List String} :
    labels.foldlM (define number) layout = .ok next ↔
      (∀ name ∈ labels, isLabelName name = true) ∧ labels.Nodup ∧
        (∀ name ∈ labels, name ∉ layout.known) ∧
        (labels ≠ [] → layout.size < UInt16.size) ∧
        next = { layout with
          labels := (labels.map fun name =>
            (name, UInt16.ofNat layout.size)).reverse ++ layout.labels } := by
  induction labels generalizing layout with
  | nil =>
      constructor
      · intro h
        obtain rfl := Except.ok.inj h
        simp
      · rintro ⟨-, -, -, -, rfl⟩
        rfl
  | cons label labels ih =>
      rw [List.foldlM_cons, Result.bind_eq_ok_iff]
      constructor
      · rintro ⟨middle, hmiddle, hrest⟩
        obtain ⟨hname, hknown, hsize, rfl⟩ := define_eq_ok_iff.mp hmiddle
        obtain ⟨hnames, hnodup, hfresh, -, rfl⟩ := ih.mp hrest
        have hlabel : label ∉ labels := by
          intro hmem
          exact hfresh label hmem (by simp [known])
        refine ⟨?_, List.nodup_cons.mpr ⟨hlabel, hnodup⟩, ?_, ?_, ?_⟩
        · exact List.forall_mem_cons.mpr ⟨hname, hnames⟩
        · refine List.forall_mem_cons.mpr ⟨hknown, ?_⟩
          intro other hother hmem
          exact hfresh other hother (List.mem_cons_of_mem _ hmem)
        · exact fun _ => hsize
        · simp
      · rintro ⟨hnames, hnodup, hfresh, hsize, rfl⟩
        obtain ⟨hname, hnames⟩ := List.forall_mem_cons.mp hnames
        obtain ⟨hknown, hfresh⟩ := List.forall_mem_cons.mp hfresh
        obtain ⟨hlabel, hnodup⟩ := List.nodup_cons.mp hnodup
        have hsize := hsize (List.cons_ne_nil _ _)
        refine ⟨_, define_eq_ok_iff.mpr ⟨hname, hknown, hsize, rfl⟩, ?_⟩
        refine ih.mpr ⟨hnames, hnodup, ?_, fun _ => hsize, ?_⟩
        · intro other hother hmem
          rcases List.mem_cons.mp hmem with rfl | hmem
          · exact hlabel hother
          · exact hfresh other hother hmem
        · simp

/-- The layout with the labels of one line defined. -/
def defineAll (layout : Layout) (labels : List String) : Layout :=
  { layout with
    labels := (labels.map fun name =>
      (name, UInt16.ofNat layout.size)).reverse ++ layout.labels }

theorem extend_blank
    (number : Nat) (layout : Layout) (labels : List String) :
    extend number layout [⟨labels, none⟩] = layout.defineAll labels := by
  simp [extend, defineAll, Outline.labelOffsets, Outline.placements,
    Outline.size, ProgramLine.size, Function.comp_def]

theorem extend_statement
    (number : Nat) (layout : Layout) (labels : List String)
    (statement : Statement) :
    extend number layout [⟨labels, some statement⟩] =
      (layout.defineAll labels).place number statement := by
  simp [extend, defineAll, place, Outline.labelOffsets, Outline.placements,
    Outline.size, ProgramLine.size, Function.comp_def]

/-- A line is accepted when its labels are and its statement can be read. -/
theorem addLine_eq_ok_iff
    {number : Nat} {layout next : Layout} {source : SourceLine} :
    addLine number layout source = .ok next ↔
      ∃ line, ProgramLine.read source = .ok line ∧
        (∀ name ∈ line.labels, isLabelName name = true) ∧
        line.labels.Nodup ∧ (∀ name ∈ line.labels, name ∉ layout.known) ∧
        (line.labels ≠ [] → layout.size < UInt16.size) ∧
        next = extend number layout [line] := by
  obtain ⟨labels, words⟩ := source
  rw [addLine, Result.bind_eq_ok_iff]
  simp only [foldlM_define_eq_ok_iff]
  cases words with
  | nil =>
      constructor
      · rintro ⟨middle, ⟨hnames, hnodup, hfresh, hsize, rfl⟩, hnext⟩
        obtain rfl := Except.ok.inj hnext
        exact ⟨⟨labels, none⟩, rfl, hnames, hnodup, hfresh, hsize,
          (extend_blank number layout labels).symm⟩
      · rintro ⟨line, hread, hnames, hnodup, hfresh, hsize, rfl⟩
        obtain rfl := Except.ok.inj hread
        refine ⟨_, ⟨hnames, hnodup, hfresh, hsize, rfl⟩, ?_⟩
        rw [extend_blank]
        rfl
  | cons mnemonic operands =>
      cases hstatement : Statement.read mnemonic operands with
      | error complaint => simp [ProgramLine.read, hstatement]
      | ok statement =>
          have hline : ProgramLine.read ⟨labels, mnemonic :: operands⟩ =
              .ok ⟨labels, some statement⟩ := by
            simp [ProgramLine.read, hstatement]
          simp only [hstatement]
          constructor
          · rintro ⟨middle, ⟨hnames, hnodup, hfresh, hsize, rfl⟩, hnext⟩
            obtain rfl := Except.ok.inj hnext
            exact ⟨_, hline, hnames, hnodup, hfresh, hsize,
              (extend_statement number layout labels statement).symm⟩
          · rintro ⟨line, hread, hnames, hnodup, hfresh, hsize, rfl⟩
            obtain rfl := Except.ok.inj (hline.symm.trans hread)
            refine ⟨_, ⟨hnames, hnodup, hfresh, hsize, rfl⟩, ?_⟩
            rw [extend_statement]
            rfl

theorem extend_nil (number : Nat) (layout : Layout) :
    extend number layout [] = layout := by
  simp [extend, Outline.labelOffsets, Outline.placements, Outline.size]

theorem size_extend_single
    (number : Nat) (layout : Layout) (line : ProgramLine) :
    (extend number layout [line]).size = layout.size + line.size := by
  simp [extend, Outline.size]

theorem known_extend_single
    (number : Nat) (layout : Layout) (line : ProgramLine) :
    (extend number layout [line]).known =
      line.labels.reverse ++ layout.known := by
  simp [extend, known, Outline.labelOffsets, Function.comp_def]

theorem extend_extend_single
    (number : Nat) (layout : Layout) (line : ProgramLine)
    (outline : Outline) :
    extend (number + 1) (extend number layout [line]) outline =
      extend number layout (line :: outline) := by
  simp [extend, Outline.labelOffsets, Outline.placements, Outline.size,
    Nat.add_assoc]

/-- The first pass accepts the readable and admissible outlines. -/
theorem addLines_eq_ok_iff
    {number : Nat} {layout final : Layout} {sources : List SourceLine} :
    addLines number layout sources = .ok final ↔
      ∃ outline : Outline,
        sources.map ProgramLine.read = outline.map Except.ok ∧
        Outline.Admissible layout.size layout.known outline ∧
        final = extend number layout outline := by
  induction sources generalizing number layout with
  | nil =>
      constructor
      · intro h
        obtain rfl := Except.ok.inj h
        refine ⟨[], rfl, ⟨?_, ?_, ?_, ?_⟩, (extend_nil number layout).symm⟩ <;>
          simp [Outline.names, Outline.labelOffsets]
      · rintro ⟨outline, hread, -, rfl⟩
        obtain rfl : outline = [] := by simpa using hread.symm
        rw [extend_nil]
        rfl
  | cons source sources ih =>
      rw [addLines_cons, Result.bind_eq_ok_iff]
      constructor
      · rintro ⟨middle, hline, hrest⟩
        obtain ⟨line, hread, hnames, hnodup, hfresh, hsize, rfl⟩ :=
          addLine_eq_ok_iff.mp hline
        obtain ⟨outline, hreads, hadmissible, rfl⟩ := ih.mp hrest
        rw [size_extend_single, known_extend_single] at hadmissible
        refine ⟨line :: outline, ?_, ?_, extend_extend_single ..⟩
        · rw [List.map_cons, List.map_cons, hread, hreads]
        · exact Outline.admissible_cons_iff.mpr
            ⟨hnames, hnodup, hfresh, hsize, hadmissible⟩
      · rintro ⟨outline, hreads, hadmissible, rfl⟩
        rw [List.map_cons, eq_comm, List.map_eq_cons_iff] at hreads
        obtain ⟨line, outline, rfl, hread, hreads⟩ := hreads
        obtain ⟨hnames, hnodup, hfresh, hsize, hadmissible⟩ :=
          Outline.admissible_cons_iff.mp hadmissible
        refine ⟨extend number layout [line], ?_, ?_⟩
        · exact addLine_eq_ok_iff.mpr
            ⟨line, hread.symm, hnames, hnodup, hfresh, hsize, rfl⟩
        · refine ih.mpr ⟨outline, hreads.symm, ?_, ?_⟩
          · rw [size_extend_single, known_extend_single]
            exact hadmissible
          · exact (extend_extend_single ..).symm

end Layout

/-! ## The second pass -/

/-- Whether a jump target is an address or one of the given labels. -/
def Target.IsDefined (names : List String) : Target → Prop
  | address _ => True
  | label name => name ∈ names

/-- The address of a target, when the labels lie where `position` says. -/
def Target.locate (position : String → Address) : Target → Address
  | address value => value
  | label name => position name

theorem Target.resolve_eq_ok_iff
    {labels : List (String × Address)} (target : Target) (value : Address) :
    target.resolve labels = .ok value ↔
      target.IsDefined (labels.map Prod.fst) ∧
        value = target.locate fun name => (labels.lookup name).getD 0 := by
  cases target with
  | address fixed =>
      simp only [Target.resolve, Target.IsDefined, Target.locate,
        Except.ok.injEq, true_and]
      exact eq_comm
  | label name =>
      simp only [Target.resolve, Target.IsDefined, Target.locate]
      rw [← lookup_isSome_iff_mem_keys]
      cases labels.lookup name with
      | none => simp
      | some found =>
          simp only [Except.ok.injEq, Option.isSome_some, Option.getD_some,
            true_and]
          exact eq_comm

namespace Statement

/-- The bytes of a statement, when the labels lie where `position` says. -/
def bytes (position : String → Address) : Statement → List UInt8
  | instruction i => (i.retarget (Target.locate position)).encode
  | data bytes => bytes

@[simp] theorem length_bytes
    (position : String → Address) (statement : Statement) :
    (statement.bytes position).length = statement.size := by
  cases statement with
  | instruction i => simp [bytes, size]
  | data bytes => rfl

/-- A statement is emitted when its jump target is defined. -/
theorem emit_eq_ok_iff
    {labels : List (String × Address)} (statement : Statement)
    (emitted : List UInt8) :
    statement.emit labels = .ok emitted ↔
      (∀ target ∈ statement.target?,
        target.IsDefined (labels.map Prod.fst)) ∧
      emitted = statement.bytes fun name => (labels.lookup name).getD 0 := by
  cases statement with
  | instruction i =>
      rw [emit, Result.map_eq_ok_iff]
      simp only [Instruction.resolve_eq_ok_iff Target.resolve_eq_ok_iff,
        target?, bytes]
      constructor
      · rintro ⟨resolved, ⟨hdefined, rfl⟩, rfl⟩
        exact ⟨hdefined, rfl⟩
      · rintro ⟨hdefined, rfl⟩
        exact ⟨_, ⟨hdefined, rfl⟩, rfl⟩
  | data bytes =>
      simp only [emit, target?, Statement.bytes, Option.not_mem_none,
        false_implies, implies_true, true_and, Except.ok.injEq]
      exact eq_comm

end Statement

theorem Layout.emit_eq_ok_iff
    {layout : Layout} {emitted : List UInt8} :
    layout.emit = .ok emitted ↔
      (∀ placed ∈ layout.placed.toList, ∀ target ∈ placed.statement.target?,
        target.IsDefined layout.known) ∧
      emitted = (layout.placed.toList.map Placed.statement).flatMap
        (Statement.bytes fun name => (layout.labels.lookup name).getD 0) := by
  have hplaced : ∀ (placed : Placed) (bytes : List UInt8),
      placed.emit layout.labels = .ok bytes ↔
        (∀ target ∈ placed.statement.target?,
          target.IsDefined layout.known) ∧
        bytes = placed.statement.bytes
          fun name => (layout.labels.lookup name).getD 0 := by
    intro placed bytes
    rw [known, ← Statement.emit_eq_ok_iff, Placed.emit]
    cases placed.statement.emit layout.labels <;> simp
  rw [Layout.emit, Result.bind_eq_ok_iff]
  simp only [Result.mapM_eq_ok_iff_of_forall hplaced, Result.pure_eq_ok,
    Except.ok.injEq]
  constructor
  · rintro ⟨parts, ⟨hdefined, rfl⟩, rfl⟩
    exact ⟨hdefined, by rw [List.flatMap_map, List.flatMap_def]⟩
  · rintro ⟨hdefined, rfl⟩
    exact ⟨_, ⟨hdefined, rfl⟩, by rw [List.flatMap_map, List.flatMap_def]⟩

/-! ## Assembling an outline -/

namespace Outline

/-- The address of a label of a program; zero for other names. -/
def position (outline : Outline) (name : String) : Address :=
  UInt16.ofNat (((labelOffsets 0 outline).lookup name).getD 0)

/-- Whether every label that is used is defined. -/
def Closed (outline : Outline) : Prop :=
  ∀ statement ∈ statements outline, ∀ target ∈ statement.target?,
    target.IsDefined (names outline)

/-- The bytes of a program: its statements one behind the other, every label
replaced by its address. -/
def bytes (outline : Outline) : List UInt8 :=
  (statements outline).flatMap (Statement.bytes (position outline))

/-- The addresses of the labels, the latest first. -/
def labelTable (outline : Outline) : List (String × Address) :=
  ((labelOffsets 0 outline).map fun entry =>
    (entry.1, UInt16.ofNat entry.2)).reverse

/-- The outline of a text: what its lines are read as. -/
def IsOutlineOf (outline : Outline) (cs : List Char) : Prop :=
  (Text.lines cs).map (fun line => ProgramLine.read (SourceLine.ofText line)) =
    outline.map Except.ok

end Outline

theorem lookup_eq_some_iff_mem
    {β : Type} {entries : List (String × β)}
    (hdistinct : (entries.map Prod.fst).Nodup) {name : String} {value : β} :
    entries.lookup name = some value ↔ (name, value) ∈ entries := by
  induction entries with
  | nil => simp
  | cons entry entries ih =>
      rw [List.map_cons, List.nodup_cons] at hdistinct
      rw [List.lookup_cons]
      by_cases hname : name = entry.1
      · subst hname
        have hother : (entry.1, value) ∉ entries := fun hmem =>
          hdistinct.1 (List.mem_map.mpr ⟨_, hmem, rfl⟩)
        simp [hother, Prod.ext_iff, eq_comm]
      · have hbeq : (name == entry.1) = false := by simpa using hname
        simp [hbeq, ih hdistinct.2, Prod.ext_iff, hname]

namespace Outline

theorem map_fst_labelTable (outline : Outline) :
    (labelTable outline).map Prod.fst = (names outline).reverse := by
  rw [labelTable, List.map_reverse, List.map_map,
    ← map_fst_labelOffsets 0 outline]
  rfl

theorem lookup_labelTable
    {outline : Outline} (hdistinct : (names outline).Nodup) (name : String) :
    (labelTable outline).lookup name =
      ((labelOffsets 0 outline).lookup name).map UInt16.ofNat := by
  have hoffsets : ((labelOffsets 0 outline).map Prod.fst).Nodup := by
    rwa [map_fst_labelOffsets]
  have htable : ((labelTable outline).map Prod.fst).Nodup := by
    rwa [map_fst_labelTable, (List.reverse_perm _).nodup_iff]
  apply Option.ext
  intro address
  rw [lookup_eq_some_iff_mem htable, Option.map_eq_some_iff]
  simp only [lookup_eq_some_iff_mem hoffsets, labelTable, List.mem_reverse,
    List.mem_map]
  constructor
  · rintro ⟨⟨other, offset⟩, hmem, heq⟩
    obtain ⟨rfl, rfl⟩ := Prod.mk.inj heq
    exact ⟨offset, hmem, rfl⟩
  · rintro ⟨offset, hmem, rfl⟩
    exact ⟨(name, offset), hmem, rfl⟩

theorem position_of_mem_labelOffsets
    {outline : Outline} (hdistinct : (names outline).Nodup) {name : String}
    {offset : Nat} (h : (name, offset) ∈ labelOffsets 0 outline) :
    position outline name = UInt16.ofNat offset := by
  rw [← map_fst_labelOffsets 0] at hdistinct
  rw [position, (lookup_eq_some_iff_mem hdistinct).mpr h, Option.getD_some]

/-- The table of an admissible outline holds exactly its labels, each with its
offset. -/
theorem Admissible.lookup_labelTable_iff
    {outline : Outline} (h : Admissible 0 [] outline) {name : String}
    {address : Address} :
    (labelTable outline).lookup name = some address ↔
      (name, address.toNat) ∈ labelOffsets 0 outline := by
  have hoffsets : ((labelOffsets 0 outline).map Prod.fst).Nodup := by
    rw [map_fst_labelOffsets]
    exact h.distinct
  rw [lookup_labelTable h.distinct, Option.map_eq_some_iff]
  simp only [lookup_eq_some_iff_mem hoffsets]
  constructor
  · rintro ⟨offset, hmem, rfl⟩
    rwa [UInt16.toNat_ofNat_of_lt' (h.reachable _ hmem)]
  · intro hmem
    exact ⟨address.toNat, hmem, UInt16.ofNat_toNat⟩

theorem position_eq_lookup
    {outline : Outline} (hdistinct : (names outline).Nodup) :
    (fun name => ((labelTable outline).lookup name).getD 0) =
      position outline := by
  funext name
  rw [lookup_labelTable hdistinct, position]
  cases (labelOffsets 0 outline).lookup name <;> rfl

end Outline

/-! ## The whole text -/

namespace Layout

/-- The layout of an outline. -/
def ofOutline (outline : Outline) : Layout :=
  extend 1 {} outline

theorem ofText_eq_ok_iff {cs : List Char} {layout : Layout} :
    ofText cs = .ok layout ↔
      ∃ outline : Outline, outline.IsOutlineOf cs ∧
        Outline.Admissible 0 [] outline ∧ layout = ofOutline outline := by
  rw [ofText_eq_addLines, addLines_eq_ok_iff, List.map_map]
  rfl

@[simp] theorem labels_ofOutline (outline : Outline) :
    (ofOutline outline).labels = Outline.labelTable outline := by
  simp [ofOutline, extend, Outline.labelTable]

@[simp] theorem placed_ofOutline (outline : Outline) :
    (ofOutline outline).placed.toList = Outline.placements 1 0 outline := by
  simp [ofOutline, extend]

theorem mem_known_ofOutline_iff {outline : Outline} {name : String} :
    name ∈ (ofOutline outline).known ↔ name ∈ Outline.names outline := by
  rw [known, labels_ofOutline, Outline.map_fst_labelTable, List.mem_reverse]

/-- The second pass accepts an outline that is closed. -/
theorem emit_ofOutline_eq_ok_iff
    {outline : Outline} (hdistinct : (Outline.names outline).Nodup)
    {emitted : List UInt8} :
    (ofOutline outline).emit = .ok emitted ↔
      Outline.Closed outline ∧ emitted = Outline.bytes outline := by
  have hdefined : ∀ target : Target,
      target.IsDefined (ofOutline outline).known ↔
        target.IsDefined (Outline.names outline) := by
    intro target
    cases target with
    | address value => rfl
    | label name => exact mem_known_ofOutline_iff
  rw [emit_eq_ok_iff, placed_ofOutline, labels_ofOutline,
    Outline.position_eq_lookup hdistinct, Outline.map_statement_placements,
    Outline.Closed, Outline.bytes,
    ← Outline.map_statement_placements 1 0 outline]
  simp only [hdefined, List.forall_mem_map]

end Layout

/-- Assembly succeeds exactly on texts whose lines can be read, whose labels are
acceptable and whose jump targets are defined; the result is that of the
outline. -/
theorem assemble_eq_ok_iff
    {source : String} {program : Program} :
    assemble source = .ok program ↔
      ∃ outline : Outline, outline.IsOutlineOf source.toList ∧
        Outline.Admissible 0 [] outline ∧ Outline.Closed outline ∧
        program = ⟨Outline.bytes outline, Outline.labelTable outline⟩ := by
  rw [assemble, Result.bind_eq_ok_iff]
  simp only [Layout.ofText_eq_ok_iff, Result.bind_eq_ok_iff,
    Result.pure_eq_ok, Except.ok.injEq]
  constructor
  · rintro ⟨layout, ⟨outline, houtline, hadmissible, rfl⟩, emitted, hemitted,
      rfl⟩
    obtain ⟨hclosed, rfl⟩ :=
      (Layout.emit_ofOutline_eq_ok_iff hadmissible.distinct).mp hemitted
    refine ⟨outline, houtline, hadmissible, hclosed, ?_⟩
    rw [Layout.labels_ofOutline]
  · rintro ⟨outline, houtline, hadmissible, hclosed, rfl⟩
    refine ⟨_, ⟨outline, houtline, hadmissible, rfl⟩, _,
      (Layout.emit_ofOutline_eq_ok_iff hadmissible.distinct).mpr
        ⟨hclosed, rfl⟩, ?_⟩
    rw [Layout.labels_ofOutline]

end ByteMachine
