import ByteMachine.Proofs.PassAgreement

/-!
# Joining texts

When one text stands behind another, its statements move by the size of the
first one.  Its labels move with them, and so do the addresses in its jumps to
labels; jumps to numbers and everything else stay as they are.  `Relocates`
says this of two byte strings and of the places where addresses of labels
stand.  It holds of a joined string when it holds of the parts, so that it is
shown for one statement and carried along the lines of the text.
-/

namespace ByteMachine

/-! ## Moved addresses -/

/-- `new` is `old` with the addresses at the given fields, two bytes each,
increased by `shift`; no address leaves the sixteen bits, and no other byte
changes. -/
structure Relocates (field : Nat → Prop) (shift : Nat) (old new : List UInt8) :
    Prop where
  length_eq : new.length = old.length
  moved : ∀ start, field start → ∃ before after : Address,
    after.toNat = before.toNat + shift ∧
      (old.drop start).take 2 = addressBytes before ∧
      (new.drop start).take 2 = addressBytes after
  kept : ∀ i, (∀ start, field start → i ≠ start ∧ i ≠ start + 1) →
    new[i]? = old[i]?

namespace Relocates

variable {field other : Nat → Prop} {shift : Nat}
  {old new old₁ new₁ old₂ new₂ : List UInt8}

theorem congr_field
    (h : Relocates field shift old new)
    (hfield : ∀ start, other start ↔ field start) :
    Relocates other shift old new where
  length_eq := h.length_eq
  moved start hstart := h.moved start ((hfield start).mp hstart)
  kept i hi := h.kept i fun start hstart =>
    hi start ((hfield start).mpr hstart)

/-- Bytes without addresses of labels stay. -/
theorem refl_of_no_field
    (hfield : ∀ start, ¬field start) (bytes : List UInt8) :
    Relocates field shift bytes bytes where
  length_eq := rfl
  moved start hstart := absurd hstart (hfield start)
  kept _ _ := rfl

/-- A slice within the first part does not see the second one. -/
theorem take_drop_append_left
    {start : Nat} {address : Address}
    (h : (old₁.drop start).take 2 = addressBytes address)
    (rest : List UInt8) :
    ((old₁ ++ rest).drop start).take 2 = addressBytes address := by
  have hlength := congrArg List.length h
  simp only [List.length_take, List.length_drop, addressBytes,
    List.length_cons, List.length_nil] at hlength
  rw [List.drop_append_of_le_length (by omega),
    List.take_append_of_le_length (by rw [List.length_drop]; omega), h]

/-- Joined strings are relocated when their parts are. -/
theorem append
    (hfirst : Relocates field shift old₁ new₁)
    (hsecond : Relocates other shift old₂ new₂) :
    Relocates
      (fun start => field start ∨
        ∃ later, other later ∧ start = old₁.length + later)
      shift (old₁ ++ old₂) (new₁ ++ new₂) where
  length_eq := by
    rw [List.length_append, List.length_append, hfirst.length_eq,
      hsecond.length_eq]
  moved := by
    rintro start (hstart | ⟨later, hlater, rfl⟩)
    · obtain ⟨before, after, hshift, hold, hnew⟩ := hfirst.moved start hstart
      exact ⟨before, after, hshift, take_drop_append_left hold _,
        take_drop_append_left hnew _⟩
    · obtain ⟨before, after, hshift, hold, hnew⟩ := hsecond.moved later hlater
      refine ⟨before, after, hshift, ?_, ?_⟩
      · rwa [List.drop_length_add_append]
      · rwa [← hfirst.length_eq, List.drop_length_add_append]
  kept := by
    intro i hi
    by_cases hlt : i < old₁.length
    · rw [List.getElem?_append_left hlt,
        List.getElem?_append_left (hfirst.length_eq ▸ hlt)]
      exact hfirst.kept i fun start hstart => hi start (.inl hstart)
    · have hge := Nat.not_lt.mp hlt
      rw [List.getElem?_append_right hge,
        List.getElem?_append_right (hfirst.length_eq ▸ hge),
        hfirst.length_eq]
      apply hsecond.kept
      intro later hlater
      have hapart := hi _ (.inr ⟨later, hlater, rfl⟩)
      omega

end Relocates

/-! ## Fields of statements -/

theorem Statement.bytes_congr
    {statement : Statement} {position other : String → Address}
    (h : ∀ name, statement.target? = some (.label name) →
      position name = other name) :
    statement.bytes position = statement.bytes other := by
  cases statement with
  | data bytes => rfl
  | instruction i =>
      cases i with
      | jump target | jumpIfZero register target =>
          cases target with
          | address value => rfl
          | label name =>
              have hname := h name rfl
              simp [bytes, Instruction.retarget, Target.locate, hname]
      | halt | load | arithmetic | push | pop | print => rfl

/-- The last two bytes of a statement are an address to be moved when its target
is a label. -/
def Statement.LabelField (statement : Statement) (start : Nat) : Prop :=
  ∃ name, statement.target? = some (.label name) ∧
    start + 2 = statement.size

/-- A statement whose label moves is relocated. -/
theorem Statement.relocates
    {statement : Statement} {position other : String → Address} {shift : Nat}
    (h : ∀ name, statement.target? = some (.label name) →
      (other name).toNat = (position name).toNat + shift) :
    Relocates statement.LabelField shift (statement.bytes position)
      (statement.bytes other) := by
  by_cases hlabel : ∃ name, statement.target? = some (.label name)
  · obtain ⟨name, hname⟩ := hlabel
    obtain ⟨opening, hsize, hbytes⟩ := exists_opening hname
    constructor
    case length_eq => rw [length_bytes, length_bytes]
    case moved =>
      rintro start ⟨_, -, hstart⟩
      obtain rfl : start = opening.length := by omega
      refine ⟨position name, other name, h name hname, ?_, ?_⟩ <;>
        rw [hbytes, List.drop_left] <;> rfl
    case kept =>
      intro i hi
      have hapart := hi opening.length ⟨name, hname, hsize.symm⟩
      rw [hbytes, hbytes]
      by_cases hlt : i < opening.length
      · rw [List.getElem?_append_left hlt, List.getElem?_append_left hlt]
      · -- Behind the opening and its two bytes there is nothing.
        have hend : ∀ address,
            (opening ++ addressBytes address).length ≤ i := by
          intro address
          simp only [List.length_append, addressBytes, List.length_cons,
            List.length_nil]
          omega
        rw [List.getElem?_eq_none (hend _), List.getElem?_eq_none (hend _)]
  · have hsame : statement.bytes position = statement.bytes other :=
      bytes_congr fun name hname => absurd ⟨name, hname⟩ hlabel
    rw [hsame]
    exact .refl_of_no_field
      (fun _ hstart => hlabel ⟨hstart.choose, hstart.choose_spec.1⟩) _

/-! ## Fields of a text -/

namespace SourceLine

/-- The address of a label stands at `start` in the bytes of these lines: the
last two bytes of a jump whose target does not look like a number. -/
def LabelField (sources : List SourceLine) (start : Nat) : Prop :=
  ∃ front line back statement name, sources = front ++ line :: back ∧
    line.statement? = some statement ∧ line.jumpWord? = some name ∧
    Operand.looksNumeric name = false ∧
    start + 2 = encodedSize front + statement.size

theorem encodedSize_cons (line : SourceLine) (sources : List SourceLine) :
    encodedSize (line :: sources) =
      (line.statement?.map Statement.size).getD 0 + encodedSize sources := by
  rw [encodedSize, List.filterMap_cons]
  cases line.statement? with
  | none => exact (Nat.zero_add _).symm
  | some statement => rfl

/-- The addresses on the first line, and those on the others behind it. -/
theorem labelField_cons_iff
    {line : SourceLine} {sources : List SourceLine} {start : Nat} :
    LabelField (line :: sources) start ↔
      (∃ statement, line.statement? = some statement ∧
        statement.LabelField start) ∨
      ∃ later, LabelField sources later ∧
        start = (line.statement?.map Statement.size).getD 0 + later := by
  constructor
  · rintro ⟨front, other, back, statement, name, hsources, hstatement, hword,
      hname, hstart⟩
    have htarget := (target?_eq_label_iff hstatement name).mpr ⟨hword, hname⟩
    cases front with
    | nil =>
        obtain ⟨rfl, rfl⟩ := List.cons.inj hsources
        exact .inl ⟨statement, hstatement, name, htarget,
          hstart.trans (Nat.zero_add _)⟩
    | cons head front =>
        obtain ⟨rfl, rfl⟩ := List.cons.inj hsources
        obtain ⟨opening, hsize, -⟩ := Statement.exists_opening htarget
        rw [encodedSize_cons] at hstart
        refine .inr ⟨encodedSize front + opening.length,
          ⟨front, other, back, statement, name, rfl, hstatement, hword, hname,
            by omega⟩, by omega⟩
  · rintro (⟨statement, hstatement, name, htarget, hstart⟩ |
      ⟨later, ⟨front, other, back, statement, name, rfl, hrest⟩, rfl⟩)
    · obtain ⟨hword, hname⟩ := (target?_eq_label_iff hstatement name).mp htarget
      exact ⟨[], line, sources, statement, name, rfl, hstatement, hword, hname,
        hstart.trans (Nat.zero_add _).symm⟩
    · obtain ⟨hstatement, hword, hname, hlater⟩ := hrest
      refine ⟨line :: front, other, back, statement, name, rfl, hstatement,
        hword, hname, ?_⟩
      rw [encodedSize_cons]
      omega

/-- Lines whose labels move are relocated. -/
theorem relocates
    {sources : List SourceLine} {position other : String → Address}
    {shift : Nat}
    (h : ∀ statement ∈ sources.filterMap statement?, ∀ name,
      statement.target? = some (.label name) →
        (other name).toNat = (position name).toNat + shift) :
    Relocates (LabelField sources) shift
      ((sources.filterMap statement?).flatMap (Statement.bytes position))
      ((sources.filterMap statement?).flatMap (Statement.bytes other)) := by
  induction sources with
  | nil =>
      refine .refl_of_no_field ?_ []
      rintro start ⟨front, line, back, -, -, hsources, -⟩
      cases front <;> cases hsources
  | cons line sources ih =>
      cases hline : line.statement? with
      | none =>
          rw [List.filterMap_cons, hline] at h ⊢
          refine (ih h).congr_field ?_
          intro start
          rw [labelField_cons_iff, hline]
          simp
      | some statement =>
          rw [List.filterMap_cons, hline] at h ⊢
          obtain ⟨hfirst, hothers⟩ := List.forall_mem_cons.mp h
          refine ((Statement.relocates hfirst).append
            (ih hothers)).congr_field ?_
          intro start
          rw [labelField_cons_iff, hline, Statement.length_bytes]
          simp

end SourceLine

/-! ## Outlines behind each other -/

namespace Outline

theorem names_append (front back : Outline) :
    names (front ++ back) = names front ++ names back := by
  simp [names]

theorem labelOffsets_append (base : Nat) (front back : Outline) :
    labelOffsets base (front ++ back) =
      labelOffsets base front ++ labelOffsets (base + size front) back := by
  induction front generalizing base with
  | nil => rfl
  | cons line front ih =>
      rw [List.cons_append, labelOffsets, ih, labelOffsets, List.append_assoc,
        size_cons, Nat.add_assoc]

theorem mem_labelOffsets_base_iff
    {base offset : Nat} {name : String} {outline : Outline} :
    (name, offset) ∈ labelOffsets base outline ↔
      ∃ start, (name, start) ∈ labelOffsets 0 outline ∧
        offset = start + base := by
  simp only [mem_labelOffsets_iff]
  constructor
  · rintro ⟨front, line, back, rfl, hname, rfl⟩
    exact ⟨size front, ⟨front, line, back, rfl, hname, (Nat.zero_add _).symm⟩,
      Nat.add_comm _ _⟩
  · rintro ⟨_, ⟨front, line, back, rfl, hname, rfl⟩, rfl⟩
    exact ⟨front, line, back, rfl, hname, by omega⟩

/-- A label of two outlines behind each other is one of the first, or one of the
second moved by the size of the first. -/
theorem mem_labelOffsets_append_iff
    {offset : Nat} {name : String} {front back : Outline} :
    (name, offset) ∈ labelOffsets 0 (front ++ back) ↔
      (name, offset) ∈ labelOffsets 0 front ∨
        ∃ start, (name, start) ∈ labelOffsets 0 back ∧
          offset = start + size front := by
  rw [labelOffsets_append, List.mem_append, Nat.zero_add]
  exact or_congr_right mem_labelOffsets_base_iff

/-- Two outlines that can stand behind each other: each is acceptable, they
share no label, and the labels of the second still have sixteen bits behind the
first. -/
structure Joinable (front back : Outline) : Prop where
  first : Admissible 0 [] front
  second : Admissible 0 [] back
  disjoint : ∀ name ∈ names front, name ∉ names back
  reachable : ∀ entry ∈ labelOffsets 0 back,
    entry.2 + size front < UInt16.size

namespace Joinable

variable {front back : Outline}

theorem admissible (h : Joinable front back) :
    Admissible 0 [] (front ++ back) where
  named name hname := by
    rw [names_append, List.mem_append] at hname
    exact hname.elim (h.first.named name) (h.second.named name)
  distinct := by
    rw [names_append, List.nodup_append]
    refine ⟨h.first.distinct, h.second.distinct, ?_⟩
    rintro name hfront _ hback rfl
    exact h.disjoint name hfront hback
  fresh := by simp
  reachable := by
    rintro ⟨name, offset⟩ hentry
    rcases mem_labelOffsets_append_iff.mp hentry with
      hfront | ⟨start, hback, rfl⟩
    · exact h.first.reachable _ hfront
    · exact h.reachable _ hback

theorem position_first
    (h : Joinable front back) {name : String} (hname : name ∈ names front) :
    position (front ++ back) name = position front name := by
  obtain ⟨offset, hentry⟩ := exists_mem_labelOffsets hname
  rw [position_of_mem_labelOffsets h.first.distinct hentry,
    position_of_mem_labelOffsets h.admissible.distinct
      (mem_labelOffsets_append_iff.mpr (.inl hentry))]

theorem position_second
    (h : Joinable front back) {name : String} (hname : name ∈ names back) :
    (position (front ++ back) name).toNat =
      (position back name).toNat + size front := by
  obtain ⟨offset, hentry⟩ := exists_mem_labelOffsets hname
  rw [position_of_mem_labelOffsets h.second.distinct hentry,
    position_of_mem_labelOffsets h.admissible.distinct
      (mem_labelOffsets_append_iff.mpr (.inr ⟨offset, hentry, rfl⟩)),
    UInt16.toNat_ofNat_of_lt' (h.reachable _ hentry),
    UInt16.toNat_ofNat_of_lt' (h.second.reachable _ hentry)]

end Joinable

theorem Closed.append
    {front back : Outline} (hfront : Closed front) (hback : Closed back) :
    Closed (front ++ back) := by
  intro statement hstatement target htarget
  rw [statements_append, List.mem_append] at hstatement
  cases target with
  | address value => trivial
  | label name =>
      rw [Target.IsDefined, names_append, List.mem_append]
      exact hstatement.imp
        (fun hmem => hfront statement hmem _ htarget)
        (fun hmem => hback statement hmem _ htarget)

/-- In front of others the statements of an outline are encoded as they are
alone. -/
theorem Joinable.bytes_append
    {front back : Outline} (h : Joinable front back) (hclosed : Closed front) :
    bytes (front ++ back) = bytes front ++
      (statements back).flatMap
        (Statement.bytes (position (front ++ back))) := by
  have hsame : (statements front).flatMap
      (Statement.bytes (position (front ++ back))) = bytes front := by
    rw [bytes, List.flatMap_def, List.flatMap_def]
    congr 1
    refine List.map_congr_left fun statement hmem => ?_
    exact Statement.bytes_congr fun name hname =>
      h.position_first (hclosed statement hmem _ hname)
  rw [bytes, statements_append, List.flatMap_append, hsame]

/-- The labels of joined outlines are those of the first as they are, and those
of the second moved. -/
theorem Joinable.lookup_append_iff
    {front back : Outline} (h : Joinable front back) {name : String}
    {address : Address} :
    (labelTable (front ++ back)).lookup name = some address ↔
      (labelTable front).lookup name = some address ∨
        ∃ old, (labelTable back).lookup name = some old ∧
          address.toNat = old.toNat + size front := by
  rw [h.admissible.lookup_labelTable_iff, mem_labelOffsets_append_iff,
    h.first.lookup_labelTable_iff]
  refine or_congr_right ?_
  simp only [h.second.lookup_labelTable_iff]
  constructor
  · rintro ⟨start, hentry, haddress⟩
    have hstart : (UInt16.ofNat start).toNat = start :=
      UInt16.toNat_ofNat_of_lt' (h.second.reachable _ hentry)
    exact ⟨UInt16.ofNat start, by rwa [hstart], by rwa [hstart]⟩
  · rintro ⟨old, hentry, haddress⟩
    exact ⟨old.toNat, hentry, haddress⟩

theorem length_bytes_eq_size (outline : Outline) :
    (bytes outline).length = size outline := by
  rw [length_bytes_eq_totalSize, size_eq_totalSize]

theorem SameProgram.size_eq
    {outline other : Outline} (h : SameProgram outline other) :
    size outline = size other := by
  rw [size_eq_totalSize, h.statements_eq, ← size_eq_totalSize]

end Outline

/-! ## Texts behind each other -/

/-- The lines of a text with a line feed behind it are its own, and possibly an
empty one. -/
theorem Text.lines_append_newline_append (cs rest : List Char) :
    ∃ gap, (gap = [] ∨ gap = [[]]) ∧
      lines (cs ++ '\n' :: rest) = lines cs ++ (gap ++ lines rest) := by
  refine lines_induction
    (p := fun cs own => ∃ gap, (gap = [] ∨ gap = [[]]) ∧
      lines (cs ++ '\n' :: rest) = own ++ (gap ++ lines rest)) ?_ ?_ ?_ cs
  · exact ⟨[[]], .inr rfl, lines_append_newline List.not_mem_nil rest⟩
  · intro line hline _
    exact ⟨[], .inl rfl, lines_append_newline hline rest⟩
  · rintro line more own hline ⟨gap, hgap, hlines⟩
    refine ⟨gap, hgap, ?_⟩
    rw [List.append_assoc, List.cons_append, lines_append_newline hline,
      hlines, List.cons_append]

/-- The outlines of two texts behind each other are that of the joined text, up
to an empty line between them. -/
theorem Outline.IsOutlineOf.append
    {first second : String} {front back : Outline}
    (hfirst : front.IsOutlineOf first.toList)
    (hsecond : back.IsOutlineOf second.toList) :
    ∃ whole, SameProgram whole front ∧
      IsOutlineOf (whole ++ back) (first ++ "\n" ++ second).toList := by
  obtain ⟨gap, hgap, hlines⟩ :=
    Text.lines_append_newline_append first.toList second.toList
  have htext : (first ++ "\n" ++ second).toList =
      first.toList ++ '\n' :: second.toList := by
    simp [String.toList_append]
  rw [IsOutlineOf] at hfirst hsecond
  rcases hgap with rfl | rfl
  · refine ⟨front, rfl, ?_⟩
    rw [IsOutlineOf, htext, hlines, List.nil_append, List.map_append, hfirst,
      hsecond, List.map_append]
  · have hblank : ProgramLine.read (SourceLine.ofText []) = .ok ⟨[], none⟩ := by
      rw [SourceLine.ofText_of_not_mem List.not_mem_nil List.not_mem_nil,
        SourceLine.wordsOf_nil]
      rfl
    refine ⟨front ++ [⟨[], none⟩], ?_, ?_⟩
    · simp [SameProgram, solid]
    · rw [IsOutlineOf, htext, hlines, List.map_append, List.map_append, hfirst,
        hsecond, List.map_singleton, hblank]
      simp

/-- A text behind another one, on lines of its own, is assembled to its own
bytes with the addresses of its labels moved by the size of the first program.
The labels are those of the first text and those of the second one, moved by as
much. -/
theorem assemble_joined
    {first second : String} {p q : Program}
    (hfirst : assemble first = .ok p) (hsecond : assemble second = .ok q)
    (hdisjoint : ∀ name ∈ p.labels.map Prod.fst, name ∉ q.labels.map Prod.fst)
    (hreach : ∀ entry ∈ q.labels, entry.2.toNat + p.bytes.length ≤ 65535) :
    ∃ joined moved, assemble (first ++ "\n" ++ second) = .ok joined ∧
      (∀ name address, joined.labels.lookup name = some address ↔
        p.labels.lookup name = some address ∨
          ∃ old, q.labels.lookup name = some old ∧
            address.toNat = old.toNat + p.bytes.length) ∧
      joined.bytes = p.bytes ++ moved ∧
      Relocates (SourceLine.LabelField (sourceLines second)) p.bytes.length
        q.bytes moved := by
  obtain ⟨front, hfront, hadmissible, hclosed, rfl⟩ :=
    assemble_eq_ok_iff.mp hfirst
  obtain ⟨back, hback, hbackAdmissible, hbackClosed, rfl⟩ :=
    assemble_eq_ok_iff.mp hsecond
  obtain ⟨whole, hsame, hwhole⟩ := hfront.append hback
  have hsize : (Outline.bytes front).length = Outline.size whole := by
    rw [Outline.length_bytes_eq_size, hsame.size_eq]
  have hjoinable : Outline.Joinable whole back := by
    refine ⟨hsame.admissible hadmissible, hbackAdmissible, ?_, ?_⟩
    · intro name hname hother
      rw [hsame.names_eq] at hname
      refine hdisjoint name ?_ ?_ <;>
        rwa [Outline.map_fst_labelTable, List.mem_reverse]
    · intro entry hentry
      have hoffset : (UInt16.ofNat entry.2).toNat = entry.2 :=
        UInt16.toNat_ofNat_of_lt' (hbackAdmissible.reachable entry hentry)
      have hmoved := hreach (entry.1, UInt16.ofNat entry.2)
        (List.mem_reverse.mpr (List.mem_map.mpr ⟨entry, hentry, rfl⟩))
      rw [← hsize, ← hoffset]
      exact Nat.lt_succ_of_le hmoved
  have hwholeClosed := hsame.closed hclosed
  refine ⟨_, (Outline.statements back).flatMap
      (Statement.bytes (Outline.position (whole ++ back))),
    assemble_eq_ok_iff.mpr ⟨whole ++ back, hwhole, hjoinable.admissible,
      hwholeClosed.append hbackClosed, rfl⟩, ?_, ?_, ?_⟩
  · intro name address
    rw [hsize, ← hsame.labelTable_eq]
    exact hjoinable.lookup_append_iff
  · rw [← hsame.bytes_eq]
    exact hjoinable.bytes_append hwholeClosed
  · have hstatements := Outline.statements_of_reads hback.reads
    rw [hsize, Outline.bytes, hstatements]
    apply SourceLine.relocates
    intro statement hmem name hname
    rw [← hstatements] at hmem
    exact hjoinable.position_second (hbackClosed statement hmem _ hname)

/-- Behind three bytes of data, the jump to a label moves and the jump to the
same number does not. -/
theorem assemble_joined_afterData :
    assemble ("db 1 2 3 ; x:" ++ "\n" ++ "b: jmp b\n jmp 0") =
        .ok ⟨[1, 2, 3, 6, 0, 3, 6, 0, 0], [("b", 3)]⟩ ∧
      Relocates (SourceLine.LabelField (sourceLines "b: jmp b\n jmp 0")) 3
        [6, 0, 0, 6, 0, 0] [6, 0, 3, 6, 0, 0] := by
  have hfirst : assemble "db 1 2 3 ; x:" = .ok ⟨[1, 2, 3], []⟩ := by
    decide +kernel
  have hsecond : assemble "b: jmp b\n jmp 0" =
      .ok ⟨[6, 0, 0, 6, 0, 0], [("b", 0)]⟩ := by
    decide +kernel
  have hboth : assemble ("db 1 2 3 ; x:" ++ "\n" ++ "b: jmp b\n jmp 0") =
      .ok ⟨[1, 2, 3, 6, 0, 3, 6, 0, 0], [("b", 3)]⟩ := by
    decide +kernel
  obtain ⟨joined, moved, hjoined, -, hbytes, hmoved⟩ :=
    assemble_joined hfirst hsecond (by decide) (by decide)
  obtain rfl := Except.ok.inj (hboth.symm.trans hjoined)
  have hsecondBytes : [1, 2, 3] ++ [6, 0, 3, 6, 0, 0] = [1, 2, 3] ++ moved :=
    hbytes
  obtain rfl := List.append_cancel_left hsecondBytes
  exact ⟨hboth, hmoved⟩

end ByteMachine
