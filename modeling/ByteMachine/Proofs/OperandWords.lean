import ByteMachine.Proofs.DigitRows
import ByteMachine.Proofs.SourceItems

/-!
# Words for operands

An operand is a register, a number of eight bits or a jump target, and which of
these it is depends on the statement alone.  The statement is then what its
operands are read as, one behind the other (`Statement.read_eq_of_roles?`), so
that what is known of the readers of single words can be said of whole texts.
Their words are described character by character, with the row of digits left
open: documented are plain rows, and read are also rows behind a plus sign.
-/

namespace ByteMachine

/-! ## Words for numbers and registers -/

namespace Operand

/-- A word for the number `n`: digits in decimal, or in hexadecimal behind one
of three marks.  The digits are what `row` allows them to be. -/
inductive NumberWord (row : Nat → Nat → List Char → Prop) (n : Nat) :
    List Char → Prop
  | decimal {digits : List Char} (h : row 10 n digits) :
      NumberWord row n digits
  | hex {digits : List Char} (h : row 16 n digits) :
      NumberWord row n ('0' :: 'x' :: digits)
  | hexCapital {digits : List Char} (h : row 16 n digits) :
      NumberWord row n ('0' :: 'X' :: digits)
  | dollar {digits : List Char} (h : row 16 n digits) :
      NumberWord row n ('$' :: digits)

/-- A word for the register `n`: the letter `r` of either case and decimal
digits, which are what `row` allows them to be. -/
inductive RegisterWord (row : Nat → Nat → List Char → Prop) (n : Nat) :
    List Char → Prop
  | small {digits : List Char} (h : row 10 n digits) :
      RegisterWord row n ('r' :: digits)
  | capital {digits : List Char} (h : row 10 n digits) :
      RegisterWord row n ('R' :: digits)

section

variable {row other : Nat → Nat → List Char → Prop} {n : Nat} {cs : List Char}

theorem NumberWord.imp
    (hrow : ∀ radix digits, digits <:+ cs → row radix n digits →
      other radix n digits)
    (h : NumberWord row n cs) : NumberWord other n cs := by
  cases h with
  | decimal h => exact .decimal (hrow _ _ (List.suffix_refl _) h)
  | hex h => exact .hex (hrow _ _ (List.suffix_append ['0', 'x'] _) h)
  | hexCapital h =>
      exact .hexCapital (hrow _ _ (List.suffix_append ['0', 'X'] _) h)
  | dollar h => exact .dollar (hrow _ _ (List.suffix_cons _ _) h)

theorem RegisterWord.imp
    (hrow : ∀ radix digits, digits <:+ cs → row radix n digits →
      other radix n digits)
    (h : RegisterWord row n cs) : RegisterWord other n cs := by
  cases h with
  | small h => exact .small (hrow _ _ (List.suffix_cons _ _) h)
  | capital h => exact .capital (hrow _ _ (List.suffix_cons _ _) h)

end

/-! ## The readers of words -/

section

variable {n : Nat} {cs : List Char} {word : String}

/-- A word in decimal carries no mark of radix sixteen. -/
theorem numberValue?_of_signedRow (h : Numeral.SignedRow 10 n cs) :
    numberValue? cs = Numeral.below? numberBound 10 cs := by
  have hread := (Numeral.unsigned?_eq_some_iff (by decide)).mpr h
  unfold numberValue?
  split
  case h_1 | h_2 | h_3 =>
    simp [Numeral.unsigned?, Numeral.ofDigits?, Numeral.appendDigit?,
      Numeral.digitValue?] at hread
  case h_4 => rfl

theorem numberValue?_of_numberWord (h : NumberWord Numeral.SignedRow n cs) :
    numberValue? cs = if n < numberBound then some n else none := by
  cases h with
  | decimal h =>
      rw [numberValue?_of_signedRow h,
        Numeral.below?_of_signedRow (by decide) h]
  | hex h | hexCapital h | dollar h =>
      exact Numeral.below?_of_signedRow (by decide) h

theorem numberWord_of_numberValue? (h : numberValue? cs = some n) :
    NumberWord Numeral.SignedRow n cs := by
  unfold numberValue? at h
  split at h
  case h_1 => exact .hex (Numeral.signedRow_of_below? (by decide) h)
  case h_2 => exact .hexCapital (Numeral.signedRow_of_below? (by decide) h)
  case h_3 => exact .dollar (Numeral.signedRow_of_below? (by decide) h)
  case h_4 => exact .decimal (Numeral.signedRow_of_below? (by decide) h)

theorem number_of_numberWord
    (h : NumberWord Numeral.SignedRow n word.toList) :
    number word =
      if n < numberBound then .ok n else .error (.invalidNumber word) := by
  rw [number, numberValue?_of_numberWord h]
  by_cases hn : n < numberBound
  · simp [hn]
  · simp [hn]

theorem numberWord_of_number (h : number word = .ok n) :
    NumberWord Numeral.SignedRow n word.toList := by
  rw [number] at h
  split at h
  case h_1 hvalue =>
    obtain rfl := Except.ok.inj h
    exact numberWord_of_numberValue? hvalue
  case h_2 => cases h

theorem exists_numberWord_of_byte {value : UInt8} (h : byte word = .ok value) :
    ∃ n, NumberWord Numeral.SignedRow n word.toList := by
  obtain ⟨n, hn, -⟩ := Result.bind_eq_ok_iff.mp h
  exact ⟨n, numberWord_of_number hn⟩

theorem exists_numberWord_of_address
    {value : Address} (h : address word = .ok value) :
    ∃ n, NumberWord Numeral.SignedRow n word.toList := by
  obtain ⟨n, hn, -⟩ := Result.bind_eq_ok_iff.mp h
  exact ⟨n, numberWord_of_number hn⟩

theorem registerNumber?_of_registerWord
    (h : RegisterWord Numeral.SignedRow n cs) :
    registerNumber? cs = if n < 8 then some n else none := by
  cases h with
  | small h | capital h => exact Numeral.below?_of_signedRow (by decide) h

theorem registerWord_of_registerNumber? (h : registerNumber? cs = some n) :
    RegisterWord Numeral.SignedRow n cs := by
  unfold registerNumber? at h
  split at h
  case h_1 => exact .small (Numeral.signedRow_of_below? (by decide) h)
  case h_2 => exact .capital (Numeral.signedRow_of_below? (by decide) h)
  case h_3 => cases h

theorem register_of_registerWord
    (h : RegisterWord Numeral.SignedRow n word.toList) :
    register word = if n < 8 then .ok (UInt8.ofNat n)
      else .error (.invalidRegister word) := by
  rw [register, registerNumber?_of_registerWord h]
  by_cases hn : n < 8
  · simp [hn]
  · simp [hn]

theorem exists_registerWord_of_register
    {r : UInt8} (h : register word = .ok r) :
    ∃ n, RegisterWord Numeral.SignedRow n word.toList := by
  rw [register] at h
  split at h
  case h_1 index hindex => exact ⟨index, registerWord_of_registerNumber? hindex⟩
  case h_2 => cases h

end

end Operand

/-! ## Operands and their roles -/

/-- What an operand is to be read as. -/
inductive OperandRole where
  | register
  | byte
  | target
  deriving DecidableEq, Repr

/-- What an operand has been read as. -/
inductive OperandValue where
  | register (index : UInt8)
  | byte (value : UInt8)
  | target (target : Target)
  deriving DecidableEq, Repr

/-- The byte that an operand has been read as, if it has. -/
def OperandValue.byte? : OperandValue → Option UInt8
  | byte value => some value
  | _ => none

/-- The operands of an operation, in order. -/
def Opcode.roles : Opcode → List OperandRole
  | halt => []
  | load => [.register, .byte]
  | arithmetic _ => [.register, .register, .register]
  | jump => [.target]
  | jumpIfZero => [.register, .target]
  | push => [.register]
  | pop => [.register]
  | print => [.register]

/-- The roles of the operands behind a mnemonic, if it can have so many. -/
def Statement.roles? (mnemonic : String) (count : Nat) :
    Option (List OperandRole) :=
  if Text.capitals mnemonic = dataMnemonic then
    if count = 0 then none else some (List.replicate count .byte)
  else
    (Opcode.ofMnemonic? mnemonic).bind fun operation =>
      if operation.roles.length = count then some operation.roles else none

/-- The operands on a line, each with its role. -/
def SourceLine.operands (line : SourceLine) : List (OperandRole × String) :=
  match line.words with
  | [] => []
  | mnemonic :: words =>
      ((Statement.roles? mnemonic words.length).getD []).zip words

namespace OperandRole

/-- Read a word in its role. -/
def read (word : String) : OperandRole → Except Complaint OperandValue
  | register => (Operand.register word).map .register
  | byte => (Operand.byte word).map .byte
  | target => (Operand.target word).map .target

/-- Read words in their roles, from left to right. -/
def readAll (entries : List (OperandRole × String)) :
    Except Complaint (List OperandValue) :=
  entries.mapM fun entry => read entry.2 entry.1

@[simp] theorem readAll_nil : readAll [] = .ok [] := rfl

@[simp] theorem readAll_cons
    (role : OperandRole) (word : String)
    (entries : List (OperandRole × String)) :
    readAll ((role, word) :: entries) =
      role.read word >>= fun value =>
        readAll entries >>= fun values => .ok (value :: values) := by
  rw [readAll, readAll, List.mapM_cons]
  rfl

/-- A word as its role demands it, with digits as in `row`.  A target that does
not look like a number is a label, of which nothing is said. -/
def Spelled (row : Nat → Nat → List Char → Prop) (word : String) :
    OperandRole → Prop
  | register => ∃ n, Operand.RegisterWord row n word.toList
  | byte => ∃ n, Operand.NumberWord row n word.toList
  | target => Operand.looksNumeric word = true →
      ∃ n, Operand.NumberWord row n word.toList

end OperandRole

/-- The instruction with operands that have been read. -/
def Instruction.ofValues : Opcode → List OperandValue → Instruction Target
  | .load, [.register r, .byte value] => .load r value
  | .arithmetic operation, [.register left, .register right,
      .register destination] => .arithmetic operation left right destination
  | .jump, [.target target] => .jump target
  | .jumpIfZero, [.register r, .target target] => .jumpIfZero r target
  | .push, [.register r] => .push r
  | .pop, [.register r] => .pop r
  | .print, [.register r] => .print r
  | _, _ => .halt

namespace Statement

/-- Operands in the right number are read in their roles, from left to right. -/
theorem readOperands_eq
    {operation : Opcode} {words : List String}
    (h : operation.roles.length = words.length) :
    readOperands operation words =
      (OperandRole.readAll (operation.roles.zip words)).map
        (Instruction.ofValues operation) := by
  cases operation with
  | halt =>
      obtain rfl := List.length_eq_zero_iff.mp h.symm
      rfl
  | jump | push | pop | print =>
      obtain ⟨first, rfl⟩ := List.length_eq_one_iff.mp h.symm
      simp [readOperands, Opcode.roles, OperandRole.read, Instruction.ofValues]
  | load | jumpIfZero =>
      obtain ⟨first, second, rfl⟩ := List.length_eq_two.mp h.symm
      simp [readOperands, Opcode.roles, OperandRole.read, Instruction.ofValues]
  | arithmetic =>
      obtain ⟨first, second, third, rfl⟩ := List.length_eq_three.mp h.symm
      simp [readOperands, Opcode.roles, OperandRole.read, Instruction.ofValues]

theorem readAll_bytes (words : List String) :
    OperandRole.readAll ((List.replicate words.length .byte).zip words) =
      (words.mapM Operand.byte).map (List.map .byte) := by
  induction words with
  | nil => rfl
  | cons word words ih =>
      rw [List.length_cons, List.replicate_succ, List.zip_cons_cons,
        OperandRole.readAll_cons, ih, List.mapM_cons]
      simp [OperandRole.read]

/-- The statement with a mnemonic and operands that have been read. -/
def ofValues (mnemonic : String) (values : List OperandValue) : Statement :=
  match Opcode.ofMnemonic? mnemonic with
  | some operation => .instruction (Instruction.ofValues operation values)
  | none => .data (values.filterMap OperandValue.byte?)

theorem ofMnemonic?_of_data
    {mnemonic : String} (h : Text.capitals mnemonic = dataMnemonic) :
    Opcode.ofMnemonic? mnemonic = none := by
  rw [Opcode.ofMnemonic?, h]
  decide

/-- A statement with operands in the right number is what they are read as. -/
theorem read_eq_of_roles?
    {mnemonic : String} {words : List String} {roles : List OperandRole}
    (h : roles? mnemonic words.length = some roles) :
    read mnemonic words =
      (OperandRole.readAll (roles.zip words)).map (ofValues mnemonic) := by
  rw [roles?] at h
  split at h
  case isTrue hdata =>
    split at h
    case isTrue => cases h
    case isFalse hcount =>
      obtain rfl := Option.some.inj h
      have hwords : words.isEmpty = false := by
        cases words with
        | nil => exact absurd rfl hcount
        | cons => rfl
      rw [read, if_pos hdata, readData, hwords, readAll_bytes]
      cases words.mapM Operand.byte with
      | error complaint => rfl
      | ok bytes =>
          simp [ofValues, ofMnemonic?_of_data hdata, List.filterMap_map,
            Function.comp_def, OperandValue.byte?]
  case isFalse hinstruction =>
    obtain ⟨operation, hoperation, hroles⟩ := Option.bind_eq_some_iff.mp h
    split at hroles
    case isTrue hcount =>
      obtain rfl := Option.some.inj hroles
      rw [read, if_neg hinstruction, hoperation]
      simp only [readOperands_eq hcount]
      cases OperandRole.readAll (operation.roles.zip words) with
      | error complaint => rfl
      | ok values => simp [ofValues, hoperation]
    case isFalse => cases hroles

/-- A statement that can be read has operands in the right number. -/
theorem exists_roles?_of_read
    {mnemonic : String} {words : List String} {statement : Statement}
    (h : read mnemonic words = .ok statement) :
    ∃ roles, roles? mnemonic words.length = some roles := by
  rw [read] at h
  rw [roles?]
  split at h
  case isTrue hdata =>
    obtain ⟨bytes, hbytes, -⟩ := Result.map_eq_ok_iff.mp h
    rw [readData] at hbytes
    split at hbytes
    case isTrue => cases hbytes
    case isFalse hwords =>
      rw [if_pos hdata, if_neg (by simpa using hwords)]
      exact ⟨_, rfl⟩
  case isFalse hinstruction =>
    split at h
    case h_1 => cases h
    case h_2 operation hoperation =>
      obtain ⟨instruction, hread, -⟩ := Result.map_eq_ok_iff.mp h
      have hcount : operation.roles.length = words.length := by
        unfold readOperands at hread
        split at hread
        case h_9 => split at hread <;> cases hread
        all_goals rfl
      rw [if_neg hinstruction, hoperation, Option.bind_some, if_pos hcount]
      exact ⟨_, rfl⟩

theorem length_of_roles?
    {mnemonic : String} {count : Nat} {roles : List OperandRole}
    (h : roles? mnemonic count = some roles) : roles.length = count := by
  rw [roles?] at h
  split at h
  · split at h
    · cases h
    · obtain rfl := Option.some.inj h
      exact List.length_replicate
  · obtain ⟨operation, -, hroles⟩ := Option.bind_eq_some_iff.mp h
    split at hroles
    · next hcount =>
        obtain rfl := Option.some.inj hroles
        exact hcount
    · cases hroles

end Statement

/-! ## The operands of texts that assemble -/

namespace OperandRole

variable {role : OperandRole} {word : String}

theorem exists_of_readAll
    {entries : List (OperandRole × String)} {values : List OperandValue}
    (h : readAll entries = .ok values) :
    ∀ entry ∈ entries, ∃ value, entry.1.read entry.2 = .ok value := by
  intro entry hentry
  have hmem := List.mem_map_of_mem (f := fun entry => read entry.2 entry.1)
    hentry
  rw [Result.mapM_eq_ok_iff.mp h] at hmem
  obtain ⟨value, -, hvalue⟩ := List.mem_map.mp hmem
  exact ⟨value, hvalue.symm⟩

theorem spelled_of_read
    {value : OperandValue} (h : role.read word = .ok value) :
    role.Spelled Numeral.SignedRow word := by
  cases role with
  | register =>
      obtain ⟨r, hr, -⟩ := Result.map_eq_ok_iff.mp h
      exact Operand.exists_registerWord_of_register hr
  | byte =>
      obtain ⟨value, hvalue, -⟩ := Result.map_eq_ok_iff.mp h
      exact Operand.exists_numberWord_of_byte hvalue
  | target =>
      intro hnumeric
      obtain ⟨target, htarget, -⟩ := Result.map_eq_ok_iff.mp h
      rw [Operand.target, if_pos hnumeric] at htarget
      obtain ⟨address, haddress, -⟩ := Result.map_eq_ok_iff.mp htarget
      exact Operand.exists_numberWord_of_address haddress

/-- The sign is all that sets the words that are read apart from the documented
ones. -/
theorem Spelled.of_no_sign
    (h : role.Spelled Numeral.SignedRow word) (hsign : '+' ∉ word.toList) :
    role.Spelled Numeral.Row word := by
  have hplain : ∀ n radix digits, digits <:+ word.toList →
      Numeral.SignedRow radix n digits → Numeral.Row radix n digits := by
    intro n radix digits hsuffix hrow
    cases hrow with
    | plain h => exact h
    | plus h => exact absurd (hsuffix.subset List.mem_cons_self) hsign
  cases role with
  | register =>
      obtain ⟨n, hn⟩ := h
      exact ⟨n, hn.imp (hplain n)⟩
  | byte =>
      obtain ⟨n, hn⟩ := h
      exact ⟨n, hn.imp (hplain n)⟩
  | target =>
      intro hnumeric
      obtain ⟨n, hn⟩ := h hnumeric
      exact ⟨n, hn.imp (hplain n)⟩

end OperandRole

/-- On a line that can be read every operand has its role and is read in it. -/
theorem SourceLine.operands_of_read
    {source : SourceLine} {line : ProgramLine}
    (h : ProgramLine.read source = .ok line) :
    source.operands.map Prod.snd = source.words.tail ∧
      ∀ entry ∈ source.operands,
        ∃ value, entry.1.read entry.2 = .ok value := by
  rw [ProgramLine.read] at h
  rw [operands]
  split at h
  case h_1 hwords => simp [hwords]
  case h_2 mnemonic words hwords =>
    obtain ⟨statement, hread, -⟩ := Result.map_eq_ok_iff.mp h
    obtain ⟨roles, hroles⟩ := Statement.exists_roles?_of_read hread
    rw [Statement.read_eq_of_roles? hroles] at hread
    obtain ⟨values, hvalues, -⟩ := Result.map_eq_ok_iff.mp hread
    simp only [hwords, hroles, Option.getD_some, List.tail_cons]
    constructor
    · exact List.map_snd_zip (Nat.le_of_eq
        (Statement.length_of_roles? hroles).symm)
    · exact OperandRole.exists_of_readAll hvalues

/-- In a text that assembles, every operand is a word as it is documented for
its role, except that one plus sign may stand in front of the digits: words
without a plus sign are as documented. -/
theorem operands_documented_but_for_sign
    {source : String} {program : Program}
    (h : assemble source = .ok program) :
    ∀ line ∈ sourceLines source,
      line.operands.map Prod.snd = line.words.tail ∧
      ∀ role word, (role, word) ∈ line.operands →
        role.Spelled Numeral.SignedRow word ∧
          ('+' ∉ word.toList → role.Spelled Numeral.Row word) := by
  obtain ⟨outline, houtline, -⟩ := assemble_eq_ok_iff.mp h
  intro line hline
  have hread : ProgramLine.read line ∈ outline.map Except.ok := by
    rw [← houtline.reads]
    exact List.mem_map_of_mem hline
  obtain ⟨here, -, hhere⟩ := List.mem_map.mp hread
  obtain ⟨hwords, hoperands⟩ := SourceLine.operands_of_read hhere.symm
  refine ⟨hwords, ?_⟩
  intro role word hmem
  obtain ⟨value, hvalue⟩ := hoperands _ hmem
  have hspelled := OperandRole.spelled_of_read hvalue
  exact ⟨hspelled, hspelled.of_no_sign⟩

/-- A sign is read behind the letter of a register, in front of a decimal number
and behind the mark of a hexadecimal one. -/
theorem operands_documented_but_for_sign_signed :
    OperandRole.register.Spelled Numeral.SignedRow "R+02" ∧
      OperandRole.byte.Spelled Numeral.Row "$0f" := by
  have hassemble : assemble "a: load R+02, $0f\n jz r1 0x+0A ; +" =
      .ok ⟨[1, 2, 15, 7, 1, 0, 10], [("a", 0)]⟩ := by
    decide +kernel
  have hline : SourceLine.mk ["a"] ["load", "R+02", "$0f"] ∈
      sourceLines "a: load R+02, $0f\n jz r1 0x+0A ; +" := by
    decide +kernel
  obtain ⟨-, hoperands⟩ := operands_documented_but_for_sign hassemble _ hline
  have hregister := hoperands .register "R+02" (by decide +kernel)
  have hbyte := hoperands .byte "$0f" (by decide +kernel)
  exact ⟨hregister.1, hbyte.2 (by decide)⟩

/-- Words that are not documented assemble. -/
theorem undocumented_operands_assemble :
    assemble "LOAD r+2, +5" = .ok ⟨[1, 2, 5], []⟩ ∧
      ∃ line ∈ sourceLines "LOAD r+2, +5",
        line.operands = [(.register, "r+2"), (.byte, "+5")] ∧
        ¬OperandRole.register.Spelled Numeral.Row "r+2" ∧
        ¬OperandRole.byte.Spelled Numeral.Row "+5" := by
  refine ⟨by decide +kernel, ⟨[], ["LOAD", "r+2", "+5"]⟩, by decide +kernel,
    by decide +kernel, ?_, ?_⟩
  · rintro ⟨n, hn⟩
    cases hn with
    | small h => exact absurd (h.digits '+' (by decide)) (by decide)
  · rintro ⟨n, hn⟩
    cases hn with
    | decimal h => exact absurd (h.digits '+' (by decide)) (by decide)

end ByteMachine
