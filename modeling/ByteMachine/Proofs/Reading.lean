import ByteMachine.Assembly.Statement
import ByteMachine.Proofs.Numeral
import ByteMachine.Proofs.Operands
import ByteMachine.Proofs.SourceText

/-!
# Reading statements

`SpellsStatement` describes the rows of words that a statement may be written
as: the mnemonic in any letter case, registers with either letter, numbers in
any notation.  Every such row is read back as the statement.  In the other
direction, whatever is read as an instruction names only registers of the bank.
-/

namespace ByteMachine

/-! ## Registers that are read -/

theorem Numeral.lt_of_below?
    {bound radix n : Nat} {cs : List Char}
    (h : Numeral.below? bound radix cs = some n) : n < bound := by
  rw [Numeral.below?, Option.filter_eq_some_iff] at h
  exact of_decide_eq_true h.2

theorem Operand.toNat_lt_of_register
    {word : String} {r : UInt8} (h : Operand.register word = .ok r) :
    r.toNat < 8 := by
  have hbound : ∀ index, Operand.registerNumber? word.toList = some index →
      index < 8 := by
    intro index hindex
    unfold Operand.registerNumber? at hindex
    split at hindex
    · exact Numeral.lt_of_below? hindex
    · exact Numeral.lt_of_below? hindex
    · cases hindex
  rw [Operand.register] at h
  cases hindex : Operand.registerNumber? word.toList with
  | none => simp [hindex] at h
  | some index =>
      simp only [hindex, Except.ok.injEq] at h
      have hlt := hbound index hindex
      rw [← h, UInt8.toNat_ofNat']
      omega

/-- Operands are read only from registers that the bank has. -/
theorem Statement.registers_lt_of_readOperands
    {operation : Opcode} {words : List String}
    {instruction : Instruction Target}
    (h : readOperands operation words = .ok instruction) :
    ∀ r ∈ instruction.registers, r.toNat < 8 := by
  unfold readOperands at h
  split at h
  · obtain rfl := Except.ok.inj h
    simp [Instruction.registers]
  · simp only [Result.bind_eq_ok_iff] at h
    obtain ⟨r, hr, value, -, hload⟩ := h
    obtain rfl := Except.ok.inj hload
    simpa [Instruction.registers] using Operand.toNat_lt_of_register hr
  · simp only [Result.bind_eq_ok_iff] at h
    obtain ⟨left, hleft, right, hright, destination, hdestination, hall⟩ := h
    obtain rfl := Except.ok.inj hall
    simp only [Instruction.registers, List.forall_mem_cons, List.not_mem_nil,
      false_implies, implies_true, and_true]
    exact ⟨Operand.toNat_lt_of_register hleft,
      Operand.toNat_lt_of_register hright,
      Operand.toNat_lt_of_register hdestination⟩
  · simp only [Result.bind_eq_ok_iff] at h
    obtain ⟨target, -, hjump⟩ := h
    obtain rfl := Except.ok.inj hjump
    simp [Instruction.registers]
  · simp only [Result.bind_eq_ok_iff] at h
    obtain ⟨r, hr, target, -, hjump⟩ := h
    obtain rfl := Except.ok.inj hjump
    simpa [Instruction.registers] using Operand.toNat_lt_of_register hr
  iterate 3
    · simp only [Result.bind_eq_ok_iff] at h
      obtain ⟨r, hr, hsingle⟩ := h
      obtain rfl := Except.ok.inj hsingle
      simpa [Instruction.registers] using Operand.toNat_lt_of_register hr
  · split at h <;> cases h

/-- A statement that is read as an instruction names registers of the bank. -/
theorem Statement.registers_lt_of_read
    {mnemonic : String} {operands : List String}
    {instruction : Instruction Target}
    (h : read mnemonic operands = .ok (.instruction instruction)) :
    ∀ r ∈ instruction.registers, r.toNat < 8 := by
  rw [read] at h
  split at h
  · obtain ⟨bytes, -, hdata⟩ := Result.map_eq_ok_iff.mp h
    cases hdata
  · split at h
    · cases h
    · obtain ⟨other, hread, hother⟩ := Result.map_eq_ok_iff.mp h
      obtain rfl := Statement.instruction.inj hother
      exact registers_lt_of_readOperands hread

/-! ## Identifiers -/

/-- Letters, digits and underscores, of which the first is no digit. -/
structure IsIdentifier (name : String) : Prop where
  ne_nil : name.toList ≠ []
  chars : ∀ c ∈ name.toList, c.isAlphanum = true ∨ c = '_'
  head : ∀ c ∈ name.toList.head?, c.isDigit = false

instance (name : String) : Decidable (IsIdentifier name) :=
  decidable_of_iff
    (name.toList ≠ [] ∧
      name.toList.all (fun c => c.isAlphanum || c == '_') = true ∧
      name.toList.head?.all (fun c => !c.isDigit) = true)
    ⟨fun h => ⟨h.1, by simpa using h.2.1,
        by simpa [Option.all_eq_true] using h.2.2⟩,
      fun h => ⟨h.ne_nil, by simpa using h.chars,
        by simpa [Option.all_eq_true] using h.head⟩⟩

theorem isLabelName_of_isIdentifier
    {name : String} (h : IsIdentifier name) : isLabelName name = true := by
  have hne := h.ne_nil
  have hchars := h.chars
  have hhead := h.head
  rw [isLabelName]
  generalize name.toList = cs at hne hchars hhead
  cases cs with
  | nil => exact absurd rfl hne
  | cons first rest =>
      obtain ⟨hfirst, hrest⟩ := List.forall_mem_cons.mp hchars
      have hdigit := hhead first (by simp)
      simp only [Char.isAlphanum, hdigit, Bool.or_false] at hfirst
      simp only [Bool.and_eq_true, Bool.or_eq_true, beq_iff_eq,
        List.all_eq_true]
      exact ⟨hfirst, hrest⟩

theorem IsIdentifier.looksNumeric_eq_false
    {name : String} (h : IsIdentifier name) :
    Operand.looksNumeric name = false := by
  have hchars := h.chars
  have hhead := h.head
  rw [Operand.looksNumeric]
  generalize name.toList = cs at hchars hhead
  cases cs with
  | nil => rfl
  | cons first rest =>
      have hdigit := hhead first (by simp)
      have hdollar : first ≠ '$' := by
        rintro rfl
        have hfirst := hchars '$' (by simp)
        revert hfirst
        decide
      simp [hdigit, hdollar]

theorem IsIdentifier.isWord
    {name : String} (h : IsIdentifier name) : SourceLine.IsWord name := by
  refine ⟨h.ne_nil, ?_⟩
  intro c hc
  rcases h.chars c hc with hc | rfl
  · simp [SourceLine.isWordChar, hc]
  · decide

/-! ## Spelled statements -/

/-- Two words are the same up to the case of their ASCII letters. -/
def SameLetters (word other : String) : Prop :=
  word.toList.map Char.toUpper = other.toList.map Char.toUpper

instance (word other : String) : Decidable (SameLetters word other) :=
  inferInstanceAs (Decidable (_ = _))

/-- The words that a jump target may be written as. -/
inductive SpellsTarget : Target → String → Prop
  | address {value : Address} {word : String}
      (h : Operand.SpellsNumber value.toNat word.toList) :
      SpellsTarget (.address value) word
  | label (name : String) : SpellsTarget (.label name) name

/-- The rows of words that the operands of an instruction may be written
as. -/
inductive SpellsOperands : Instruction Target → List String → Prop
  | halt : SpellsOperands .halt []
  | load {r value : UInt8} {first second : String}
      (hfirst : Operand.SpellsRegister r first.toList)
      (hsecond : Operand.SpellsNumber value.toNat second.toList) :
      SpellsOperands (.load r value) [first, second]
  | arithmetic (operation : Arithmetic) {left right destination : UInt8}
      {first second third : String}
      (hfirst : Operand.SpellsRegister left first.toList)
      (hsecond : Operand.SpellsRegister right second.toList)
      (hthird : Operand.SpellsRegister destination third.toList) :
      SpellsOperands (.arithmetic operation left right destination)
        [first, second, third]
  | jump {target : Target} {first : String}
      (hfirst : SpellsTarget target first) :
      SpellsOperands (.jump target) [first]
  | jumpIfZero {r : UInt8} {target : Target} {first second : String}
      (hfirst : Operand.SpellsRegister r first.toList)
      (hsecond : SpellsTarget target second) :
      SpellsOperands (.jumpIfZero r target) [first, second]
  | push {r : UInt8} {first : String}
      (hfirst : Operand.SpellsRegister r first.toList) :
      SpellsOperands (.push r) [first]
  | pop {r : UInt8} {first : String}
      (hfirst : Operand.SpellsRegister r first.toList) :
      SpellsOperands (.pop r) [first]
  | print {r : UInt8} {first : String}
      (hfirst : Operand.SpellsRegister r first.toList) :
      SpellsOperands (.print r) [first]

/-- The rows of words that the values of a data statement may be written
as. -/
inductive SpellsBytes : List UInt8 → List String → Prop
  | nil : SpellsBytes [] []
  | cons {value : UInt8} {word : String} {values : List UInt8}
      {words : List String} (h : Operand.SpellsNumber value.toNat word.toList)
      (hrest : SpellsBytes values words) :
      SpellsBytes (value :: values) (word :: words)

/-- The rows of words that a statement may be written as. -/
inductive SpellsStatement : Statement → List String → Prop
  | instruction {i : Instruction Target} {mnemonic : String}
      {operands : List String}
      (hmnemonic : SameLetters mnemonic i.opcode.mnemonic)
      (hoperands : SpellsOperands i operands) :
      SpellsStatement (.instruction i) (mnemonic :: operands)
  | data {values : List UInt8} {mnemonic : String} {operands : List String}
      (hmnemonic : SameLetters mnemonic "DB")
      (hoperands : SpellsBytes values operands) :
      SpellsStatement (.data values) (mnemonic :: operands)

/-! ## Reading spelled statements -/

theorem capitals_of_sameLetters
    {word name : String} (h : SameLetters word name)
    (hname : Text.capitals name = name) : Text.capitals word = name := by
  rw [← hname, Text.capitals, h, Text.capitals]

theorem Opcode.capitals_mnemonic (operation : Opcode) :
    Text.capitals operation.mnemonic = operation.mnemonic := by
  rcases operation with _ | _ | (_ | _ | _ | _) | _ | _ | _ | _ | _ <;> decide

theorem Opcode.ofMnemonic?_of_sameLetters
    {word : String} {operation : Opcode}
    (h : SameLetters word operation.mnemonic) :
    Opcode.ofMnemonic? word = some operation := by
  rw [Opcode.ofMnemonic?, capitals_of_sameLetters h operation.capitals_mnemonic]
  rcases operation with _ | _ | (_ | _ | _ | _) | _ | _ | _ | _ | _ <;> decide

theorem Opcode.mnemonic_ne_data (operation : Opcode) :
    operation.mnemonic ≠ Statement.dataMnemonic := by
  rcases operation with _ | _ | (_ | _ | _ | _) | _ | _ | _ | _ | _ <;> decide

theorem Operand.target_of_spells
    {target : Target} {word : String} (h : SpellsTarget target word)
    (hlabel : ∀ name, target = .label name → IsIdentifier name) :
    Operand.target word = .ok target := by
  cases h with
  | address h =>
      rw [Operand.target, if_pos (Operand.looksNumeric_of_spells h),
        Operand.address_of_spells h]
      rfl
  | label =>
      have hnumeric := (hlabel word rfl).looksNumeric_eq_false
      rw [Operand.target, if_neg (by simp [hnumeric])]

/-- Spelled operands are read back when the bank has their registers. -/
theorem Statement.readOperands_of_spells
    {instruction : Instruction Target} {words : List String}
    (h : SpellsOperands instruction words)
    (hregisters : ∀ r ∈ instruction.registers, r.toNat < 8)
    (hlabel : ∀ name, instruction.target? = some (.label name) →
      IsIdentifier name) :
    readOperands instruction.opcode words = .ok instruction := by
  have hregister : ∀ {r : UInt8} {word : String},
      r ∈ instruction.registers → Operand.SpellsRegister r word.toList →
        Operand.register word = .ok r := by
    intro r word hr hspells
    rw [Operand.register_of_spells hspells, if_pos (hregisters r hr)]
  cases h with
  | halt => rfl
  | load hfirst hsecond =>
      simp [readOperands, Instruction.opcode,
        hregister (by simp [Instruction.registers]) hfirst,
        Operand.byte_of_spells hsecond]
  | arithmetic operation hfirst hsecond hthird =>
      simp [readOperands, Instruction.opcode,
        hregister (by simp [Instruction.registers]) hfirst,
        hregister (by simp [Instruction.registers]) hsecond,
        hregister (by simp [Instruction.registers]) hthird]
  | jump hfirst =>
      have htarget := Operand.target_of_spells hfirst fun name hname =>
        hlabel name (by simp [Instruction.target?, hname])
      simp [readOperands, Instruction.opcode, htarget]
  | jumpIfZero hfirst hsecond =>
      have htarget := Operand.target_of_spells hsecond fun name hname =>
        hlabel name (by simp [Instruction.target?, hname])
      simp [readOperands, Instruction.opcode,
        hregister (by simp [Instruction.registers]) hfirst, htarget]
  | push hfirst | pop hfirst | print hfirst =>
      simp [readOperands, Instruction.opcode,
        hregister (by simp [Instruction.registers]) hfirst]

theorem Statement.mapM_byte_of_spells
    {values : List UInt8} {words : List String}
    (h : SpellsBytes values words) :
    words.mapM Operand.byte = .ok values := by
  rw [Result.mapM_eq_ok_iff]
  induction h with
  | nil => rfl
  | cons hvalue hrest ih =>
      rw [List.map_cons, List.map_cons, ih, Operand.byte_of_spells hvalue]

/-- What an abstract statement must satisfy to be written in source text:
registers are those of the bank, data is not empty, and a label is an
identifier. -/
structure Statement.WellFormed (statement : Statement) : Prop where
  registers : ∀ i, statement = .instruction i →
    ∀ r ∈ i.registers, r.toNat < 8
  data : ∀ bytes, statement = .data bytes → bytes ≠ []
  label : ∀ name, statement.target? = some (.label name) → IsIdentifier name

/-- Every spelling of a well-formed statement is read as the statement. -/
theorem Statement.read_of_spells
    {statement : Statement} {mnemonic : String} {operands : List String}
    (h : SpellsStatement statement (mnemonic :: operands))
    (hwell : statement.WellFormed) :
    read mnemonic operands = .ok statement := by
  cases h with
  | @instruction i _ _ hmnemonic hoperands =>
      have hcapitals :=
        capitals_of_sameLetters hmnemonic i.opcode.capitals_mnemonic
      have hread :=
        readOperands_of_spells hoperands (hwell.registers i rfl) hwell.label
      rw [read, hcapitals, if_neg i.opcode.mnemonic_ne_data,
        Opcode.ofMnemonic?_of_sameLetters hmnemonic]
      exact Result.map_eq_ok_iff.mpr ⟨i, hread, rfl⟩
  | @data values _ _ hmnemonic hoperands =>
      have hcapitals := capitals_of_sameLetters hmnemonic (by decide)
      have hne : operands ≠ [] := by
        rintro rfl
        cases hoperands
        exact hwell.data [] rfl rfl
      rw [read, hcapitals, if_pos (by rfl), readData,
        if_neg (by simpa using hne), mapM_byte_of_spells hoperands]
      rfl

/-! ## The words of spelled statements -/

theorem SourceLine.isWord_of_isAlphanum
    {word : String} (hne : word.toList ≠ [])
    (hchars : ∀ c ∈ word.toList, c.isAlphanum = true) :
    SourceLine.IsWord word := by
  refine ⟨hne, ?_⟩
  intro c hc
  simp [SourceLine.isWordChar, hchars c hc]

theorem Numeral.Spells.isAlphanum
    {radix n : Nat} {cs : List Char} (hradix : 1 < radix)
    (hmax : radix ≤ 16) (h : Numeral.Spells radix n cs) :
    ∀ c ∈ cs, c.isAlphanum = true := by
  obtain ⟨zeros, hcs⟩ := h
  intro c hc
  have hlower : c.toLower ∈ cs.map Char.toLower :=
    List.mem_map.mpr ⟨c, hc, rfl⟩
  have hdigit : ∀ d ∈ List.range 16, d.digitChar.isAlphanum = true := by
    decide
  rw [hcs, List.mem_append, List.mem_replicate] at hlower
  rw [← Letters.isAlphanum_toLower]
  rcases hlower with ⟨-, hzero⟩ | hmem
  · rw [hzero]
    decide
  · obtain ⟨d, hd, heq⟩ :=
      Numeral.exists_digitChar_of_mem_toDigits hradix hmax hmem
    rw [heq]
    exact hdigit d (List.mem_range.mpr hd)

theorem Operand.SpellsNumber.isWord
    {n : Nat} {word : String} (h : Operand.SpellsNumber n word.toList) :
    SourceLine.IsWord word := by
  constructor
  · generalize word.toList = cs at h
    cases h with
    | decimal h =>
        obtain ⟨first, rest, rfl, -⟩ := Numeral.isDigit_head_of_spells h
        exact List.cons_ne_nil _ _
    | hex | hexCapital | dollar => exact List.cons_ne_nil _ _
  · generalize word.toList = cs at h
    intro c hc
    have halphanum : ∀ {digits : List Char} {radix : Nat}, 1 < radix →
        radix ≤ 16 → Numeral.Spells radix n digits → c ∈ digits →
          SourceLine.isWordChar c = true := by
      intro digits radix hradix hmax hdigits hmem
      simp [SourceLine.isWordChar, hdigits.isAlphanum hradix hmax c hmem]
    cases h with
    | decimal h => exact halphanum (by decide) (by decide) h hc
    | hex h | hexCapital h =>
        rcases List.mem_cons.mp hc with rfl | hc
        · rfl
        · rcases List.mem_cons.mp hc with rfl | hc
          · rfl
          · exact halphanum (by decide) (by decide) h hc
    | dollar h =>
        rcases List.mem_cons.mp hc with rfl | hc
        · rfl
        · exact halphanum (by decide) (by decide) h hc

theorem Operand.SpellsRegister.isWord
    {r : UInt8} {word : String} (h : Operand.SpellsRegister r word.toList) :
    SourceLine.IsWord word := by
  apply SourceLine.isWord_of_isAlphanum
  · generalize word.toList = cs at h
    cases h <;> exact List.cons_ne_nil _ _
  · generalize word.toList = cs at h
    cases h with
    | small h | capital h =>
        refine List.forall_mem_cons.mpr ⟨rfl, ?_⟩
        exact h.isAlphanum (by decide) (by decide)

theorem SpellsTarget.isWord
    {target : Target} {word : String} (h : SpellsTarget target word)
    (hlabel : ∀ name, target = .label name → IsIdentifier name) :
    SourceLine.IsWord word := by
  cases h with
  | address h => exact h.isWord
  | label => exact (hlabel word rfl).isWord

theorem SameLetters.isWord
    {word name : String} (h : SameLetters word name)
    (hne : name.toList ≠ [])
    (hname : name.toList.all Char.isAlphanum = true) :
    SourceLine.IsWord word := by
  rw [List.all_eq_true] at hname
  apply SourceLine.isWord_of_isAlphanum
  · intro hnil
    rw [SameLetters, hnil, List.map_nil, eq_comm, List.map_eq_nil_iff] at h
    exact hne h
  · intro c hc
    have hupper : c.toUpper ∈ name.toList.map Char.toUpper := by
      rw [← h]
      exact List.mem_map.mpr ⟨c, hc, rfl⟩
    obtain ⟨d, hd, heq⟩ := List.mem_map.mp hupper
    rw [← Letters.isAlphanum_toUpper, ← heq, Letters.isAlphanum_toUpper]
    exact hname d hd

theorem SpellsOperands.isWord
    {instruction : Instruction Target} {words : List String}
    (h : SpellsOperands instruction words)
    (hlabel : ∀ name, instruction.target? = some (.label name) →
      IsIdentifier name) :
    ∀ word ∈ words, SourceLine.IsWord word := by
  cases h with
  | halt => simp
  | load hfirst hsecond => simp [hfirst.isWord, hsecond.isWord]
  | arithmetic operation hfirst hsecond hthird =>
      simp [hfirst.isWord, hsecond.isWord, hthird.isWord]
  | jump hfirst =>
      have htarget := hfirst.isWord fun name hname =>
        hlabel name (by simp [Instruction.target?, hname])
      simp [htarget]
  | jumpIfZero hfirst hsecond =>
      have htarget := hsecond.isWord fun name hname =>
        hlabel name (by simp [Instruction.target?, hname])
      simp [hfirst.isWord, htarget]
  | push hfirst | pop hfirst | print hfirst => simp [hfirst.isWord]

theorem SpellsBytes.isWord
    {values : List UInt8} {words : List String}
    (h : SpellsBytes values words) :
    ∀ word ∈ words, SourceLine.IsWord word := by
  induction h with
  | nil => simp
  | cons hvalue hrest ih =>
      exact List.forall_mem_cons.mpr ⟨hvalue.isWord, ih⟩

theorem Opcode.mnemonic_isAlphanum (operation : Opcode) :
    operation.mnemonic.toList ≠ [] ∧
      operation.mnemonic.toList.all Char.isAlphanum = true := by
  rcases operation with _ | _ | (_ | _ | _ | _) | _ | _ | _ | _ | _ <;> decide

/-- A spelled statement consists of words. -/
theorem SpellsStatement.isWord
    {statement : Statement} {words : List String}
    (h : SpellsStatement statement words)
    (hlabel : ∀ name, statement.target? = some (.label name) →
      IsIdentifier name) :
    ∀ word ∈ words, SourceLine.IsWord word := by
  cases h with
  | @instruction i _ _ hmnemonic hoperands =>
      have hname := i.opcode.mnemonic_isAlphanum
      exact List.forall_mem_cons.mpr
        ⟨hmnemonic.isWord hname.1 hname.2, hoperands.isWord hlabel⟩
  | data hmnemonic hoperands =>
      exact List.forall_mem_cons.mpr
        ⟨hmnemonic.isWord (by decide) (by decide), hoperands.isWord⟩

end ByteMachine
