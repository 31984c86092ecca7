import ByteMachine.Proofs.ErrorLines
import ByteMachine.Proofs.OperandWords
import Mathlib.Data.List.Forall2

/-!
# Numbers are classified by their value

Three limits matter to a number in source text: that of its place, that below
which it counts as a number at all, and the number of registers.  Which side of
a limit it is on depends on its value, never on the row of digits that writes
it.  Two texts that differ in such rows alone therefore assemble to the same
program, or both fail.
-/

namespace ByteMachine
namespace Operand

/-- What a word for the number `n` comes to in a place of so many bits. -/
def classified (bits n : Nat) (word : String) : Except Complaint Nat :=
  if n < 2 ^ bits then
    .ok n
  else if n < 2 ^ 32 then
    .error (.outOfRange n bits)
  else
    .error (.invalidNumber word)

section

variable {n : Nat} {word : String}

theorem classified_eq_ok_iff {bits value : Nat} :
    classified bits n word = .ok value ↔ n < 2 ^ bits ∧ n = value := by
  rw [classified]
  split
  · simp [*]
  · split <;> simp [*]

theorem NumberWord.signed (h : NumberWord Numeral.Row n word.toList) :
    NumberWord Numeral.SignedRow n word.toList :=
  h.imp fun _ _ _ => .plain

theorem RegisterWord.signed (h : RegisterWord Numeral.Row n word.toList) :
    RegisterWord Numeral.SignedRow n word.toList :=
  h.imp fun _ _ _ => .plain

/-- A documented number looks like one from its first character. -/
theorem looksNumeric_of_numberWord
    (h : NumberWord Numeral.Row n word.toList) : looksNumeric word = true := by
  rw [looksNumeric]
  generalize word.toList = cs at h
  cases h with
  | decimal h =>
      obtain ⟨first, rest, rfl⟩ := List.exists_cons_of_ne_nil h.ne_nil
      have hfirst := h.digits first List.mem_cons_self
      simp [Numeral.digit_lt_ten_iff.mp hfirst]
  | hex | hexCapital | dollar => rfl

/-- Whether a word is a number at all is asked first, and whether the number
fits its place after that. -/
theorem number_bind_of_numberWord
    {α : Type} (bits : Nat) (hbits : bits ≤ 32) (narrow : Nat → α)
    (h : NumberWord Numeral.Row n word.toList) :
    (number word >>= fun value =>
        if value < 2 ^ bits then .ok (narrow value)
        else .error (.outOfRange value bits)) =
      (classified bits n word).map narrow := by
  have hpow : 2 ^ bits ≤ numberBound :=
    Nat.pow_le_pow_right (by decide) hbits
  rw [number_of_numberWord h.signed, classified]
  by_cases hsmall : n < 2 ^ bits
  · have hnumber : n < numberBound := Nat.lt_of_lt_of_le hsmall hpow
    simp [hsmall, hnumber]
  · by_cases hnumber : n < 2 ^ 32
    · rw [if_pos (c := n < numberBound) hnumber, Result.ok_bind,
        if_neg hsmall, if_neg hsmall, if_pos hnumber]
      rfl
    · rw [if_neg (c := n < numberBound) hnumber, Result.error_bind,
        if_neg hsmall, if_neg hnumber]
      rfl

theorem byte_of_numberWord (h : NumberWord Numeral.Row n word.toList) :
    byte word = (classified 8 n word).map UInt8.ofNat :=
  number_bind_of_numberWord 8 (by decide) UInt8.ofNat h

theorem target_of_numberWord (h : NumberWord Numeral.Row n word.toList) :
    target word = (classified 16 n word).map fun value =>
      .address (UInt16.ofNat value) := by
  have haddress : address word = (classified 16 n word).map UInt16.ofNat :=
    number_bind_of_numberWord 16 (by decide) UInt16.ofNat h
  rw [target, if_pos (looksNumeric_of_numberWord h), haddress]
  cases classified 16 n word <;> rfl

end

end Operand

/-! ## Texts that differ in their digits -/

/-- Operands in the same role that write the same number. -/
inductive OperandRole.SameOperand :
    OperandRole × String → OperandRole × String → Prop
  | same (entry : OperandRole × String) : SameOperand entry entry
  | register {n : Nat} {word other : String}
      (hword : Operand.RegisterWord Numeral.Row n word.toList)
      (hother : Operand.RegisterWord Numeral.Row n other.toList) :
      SameOperand (.register, word) (.register, other)
  | byte {n : Nat} {word other : String}
      (hword : Operand.NumberWord Numeral.Row n word.toList)
      (hother : Operand.NumberWord Numeral.Row n other.toList) :
      SameOperand (.byte, word) (.byte, other)
  | target {n : Nat} {word other : String}
      (hword : Operand.NumberWord Numeral.Row n word.toList)
      (hother : Operand.NumberWord Numeral.Row n other.toList) :
      SameOperand (.target, word) (.target, other)

/-- Lines that are the same but for how their operands write numbers. -/
inductive SourceLine.Respells : SourceLine → SourceLine → Prop
  | same (line : SourceLine) : Respells line line
  | operands {labels : List String} {mnemonic : String}
      {words others : List String} {roles : List OperandRole}
      (hroles : Statement.roles? mnemonic words.length = some roles)
      (hlength : words.length = others.length)
      (hsame : List.Forall₂ OperandRole.SameOperand
        (roles.zip words) (roles.zip others)) :
      Respells ⟨labels, mnemonic :: words⟩ ⟨labels, mnemonic :: others⟩

/-- Words for one number are read alike, unless neither can be read. -/
theorem OperandRole.SameOperand.read_agree
    {first second : OperandRole × String} (h : SameOperand first second)
    (value : OperandValue) :
    first.1.read first.2 = .ok value ↔ second.1.read second.2 = .ok value := by
  cases h with
  | same => rfl
  | register hword hother =>
      simp only [read, Operand.register_of_registerWord hword.signed,
        Operand.register_of_registerWord hother.signed]
      split <;> simp
  | byte hword hother =>
      simp only [read, Operand.byte_of_numberWord hword,
        Operand.byte_of_numberWord hother, Result.map_eq_ok_iff,
        Operand.classified_eq_ok_iff]
  | target hword hother =>
      simp only [read, Operand.target_of_numberWord hword,
        Operand.target_of_numberWord hother, Result.map_eq_ok_iff,
        Operand.classified_eq_ok_iff]

/-- Lists whose entries succeed alike succeed alike. -/
theorem Result.mapM_agree
    {ε α β : Type} {f : α → Except ε β} {r : α → α → Prop}
    (hf : ∀ a b, r a b → ∀ y, f a = .ok y ↔ f b = .ok y)
    {xs ys : List α} (h : List.Forall₂ r xs ys) (zs : List β) :
    xs.mapM f = .ok zs ↔ ys.mapM f = .ok zs := by
  induction h generalizing zs with
  | nil => rfl
  | cons hhead _ ih =>
      simp only [List.mapM_cons, Result.bind_eq_ok_iff, Result.pure_eq_ok,
        hf _ _ hhead, ih]

theorem SourceLine.Respells.read_agree
    {first second : SourceLine} (h : Respells first second)
    (line : ProgramLine) :
    ProgramLine.read first = .ok line ↔ ProgramLine.read second = .ok line := by
  cases h with
  | same => rfl
  | @operands labels mnemonic words others roles hroles hlength hsame =>
      have hvalues : ∀ values,
          OperandRole.readAll (roles.zip words) = .ok values ↔
            OperandRole.readAll (roles.zip others) = .ok values :=
        Result.mapM_agree (fun _ _ h => h.read_agree) hsame
      simp only [ProgramLine.read, Statement.read_eq_of_roles? hroles,
        Statement.read_eq_of_roles? (hlength ▸ hroles), Result.map_eq_ok_iff,
        hvalues]

/-- Texts that differ in how they write numbers give one program, or none. -/
theorem assemble_agree_of_respells
    {source other : String}
    (h : List.Forall₂ SourceLine.Respells (sourceLines source)
      (sourceLines other)) (program : Program) :
    assemble source = .ok program ↔ assemble other = .ok program := by
  have hreads : ∀ source : String, ∀ outline : Outline,
      Outline.IsOutlineOf outline source.toList ↔
        (sourceLines source).mapM ProgramLine.read = .ok outline := by
    intro source outline
    rw [Result.mapM_eq_ok_iff, sourceLines, List.map_map]
    rfl
  have hlines : ∀ outline : Outline,
      (sourceLines source).mapM ProgramLine.read = .ok outline ↔
        (sourceLines other).mapM ProgramLine.read = .ok outline :=
    Result.mapM_agree (fun _ _ h => h.read_agree) h
  simp only [assemble_eq_ok_iff, hreads, hlines]

/-- What is wrong with the first statement that cannot be read is what is wrong
with the text, when the labels up to that statement are acceptable. -/
theorem assemble_of_read_error
    {source mnemonic : String} {front back : List SourceLine}
    {labels words : List String} {complaint : Complaint}
    (hlines : sourceLines source =
      front ++ ⟨labels, mnemonic :: words⟩ :: back)
    (hfront : SourceLine.Flawless (front ++ [⟨labels, []⟩]))
    (hread : Statement.read mnemonic words = .error complaint) :
    assemble source = .error ⟨front.length + 1, complaint⟩ := by
  cases hlabels : Layout.addLines 1 {} (front ++ [⟨labels, []⟩]) with
  | error error =>
      obtain ⟨before, line, after, middle, hcut, hbefore, hline⟩ :=
        Layout.exists_of_addLines_eq_error hlabels
      obtain ⟨-, hflaw⟩ :=
        (Layout.follows_of_addLines hbefore).flaw_of_addLine hline
      exact absurd hflaw (hfront before line after hcut _)
  | ok layout =>
      rw [Layout.addLines_append] at hlabels
      obtain ⟨middle, hmiddle, hlast⟩ := Result.bind_eq_ok_iff.mp hlabels
      obtain ⟨next, hnext, -⟩ := Result.bind_eq_ok_iff.mp hlast
      obtain ⟨defined, hdefined, -⟩ := Result.bind_eq_ok_iff.mp hnext
      apply assemble_eq_error_iff.mpr
      left
      rw [hlines]
      apply Layout.addLines_of_addLine_eq_error hmiddle
      rw [Layout.addLine, hdefined, Result.ok_bind, Nat.add_comm 1]
      simp [hread]

/-- A number in the documented spelling is taken for what its value is, on each
side of the three limits, and so is a register.  A statement is what its
operands are read as, one behind the other, and its complaint is that of the
text when nothing is wrong in front of it.  Two texts that write the same
numbers give the same program, or none. -/
theorem numbers_classified_by_value :
    (∀ n word, Operand.NumberWord Numeral.Row n word.toList →
      Operand.byte word =
          (Operand.classified 8 n word).map UInt8.ofNat ∧
        Operand.target word =
          (Operand.classified 16 n word).map fun value =>
            .address (UInt16.ofNat value)) ∧
    (∀ n word, Operand.RegisterWord Numeral.Row n word.toList →
      Operand.register word =
        if n < 8 then .ok (UInt8.ofNat n)
        else .error (.invalidRegister word)) ∧
    (∀ mnemonic words roles,
      Statement.roles? mnemonic words.length = some roles →
      Statement.read mnemonic words =
        (OperandRole.readAll (roles.zip words)).map
          (Statement.ofValues mnemonic)) ∧
    (∀ source front labels mnemonic words back complaint,
      sourceLines source = front ++ ⟨labels, mnemonic :: words⟩ :: back →
      SourceLine.Flawless (front ++ [⟨labels, []⟩]) →
      Statement.read mnemonic words = .error complaint →
      assemble source = .error ⟨front.length + 1, complaint⟩) ∧
    ∀ source other,
      List.Forall₂ SourceLine.Respells (sourceLines source)
        (sourceLines other) →
      ∀ program, assemble source = .ok program ↔
        assemble other = .ok program := by
  refine ⟨?_, ?_, ?_, ?_, ?_⟩
  · intro n word hword
    exact ⟨Operand.byte_of_numberWord hword, Operand.target_of_numberWord hword⟩
  · intro n word hword
    exact Operand.register_of_registerWord hword.signed
  · intro mnemonic words roles hroles
    exact Statement.read_eq_of_roles? hroles
  · intro source front labels mnemonic words back complaint hlines hfront hread
    exact assemble_of_read_error hlines hfront hread
  · intro source other hlines
    exact assemble_agree_of_respells hlines

/-- Leading zeros count neither towards the limit of a place nor towards that of
numbers, and two texts with the same numbers give one program. -/
theorem numbers_classified_by_value_leadingZeros :
    Operand.byte "0x000000000Ff" = .ok 255 ∧
      Operand.target "$10000" = .error (.outOfRange 65536 16) ∧
      Operand.byte "04294967296" = .error (.invalidNumber "04294967296") ∧
      Operand.register "R00000000007" = .ok 7 ∧
      assemble "end: db $0a 256" = .error ⟨1, .outOfRange 256 8⟩ ∧
      ∀ program, assemble "load r1, 0x0A\njmp $0003" = .ok program ↔
        assemble "load R01 10 ; ten\njmp 3" = .ok program := by
  obtain ⟨hnumber, hregister, hstatement, hrefused, hassemble⟩ :=
    numbers_classified_by_value
  have hbyte := (hnumber 255 "0x000000000Ff" (.hex (by decide +kernel))).1
  have htarget := (hnumber 65536 "$10000" (.dollar (by decide +kernel))).2
  have hlarge := (hnumber (2 ^ 32) "04294967296"
    (.decimal (by decide +kernel))).1
  have hread := hstatement "db" ["$0a", "256"] [.byte, .byte]
    (by decide +kernel)
  have hlabel : Layout.addLines 1 {} [⟨["end"], []⟩] =
      .ok ⟨[("end", 0)], #[], 0⟩ := by
    decide +kernel
  have hdata := hrefused "end: db $0a 256" [] ["end"] "db" ["$0a", "256"] []
    (.outOfRange 256 8) (by decide +kernel)
    (Layout.flawless_of_addLines hlabel) (hread.trans (by decide +kernel))
  have hseven := hregister 7 "R00000000007" (.capital (by decide +kernel))
  refine ⟨hbyte, htarget, hlarge, hseven, hdata, hassemble _ _ ?_⟩
  have hfirst : sourceLines "load r1, 0x0A\njmp $0003" =
      [⟨[], ["load", "r1", "0x0A"]⟩, ⟨[], ["jmp", "$0003"]⟩] := by
    decide +kernel
  have hsecond : sourceLines "load R01 10 ; ten\njmp 3" =
      [⟨[], ["load", "R01", "10"]⟩, ⟨[], ["jmp", "3"]⟩] := by
    decide +kernel
  rw [hfirst, hsecond]
  have hload : Statement.roles? "load" 2 = some [.register, .byte] := by
    decide +kernel
  have hjump : Statement.roles? "jmp" 1 = some [.target] := by
    decide +kernel
  refine .cons (.operands hload rfl ?_) (.cons (.operands hjump rfl ?_) .nil)
  · exact .cons
      (.register (n := 1) (.small (by decide +kernel))
        (.capital (by decide +kernel)))
      (.cons (.byte (n := 10) (.hex (by decide +kernel))
        (.decimal (by decide +kernel))) .nil)
  · exact .cons
      (.target (n := 3) (.dollar (by decide +kernel))
        (.decimal (by decide +kernel))) .nil

end ByteMachine
