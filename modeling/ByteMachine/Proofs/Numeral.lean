import ByteMachine.Assembly.Operand
import ByteMachine.Proofs.Letters

/-!
# Spelled numerals

A number has many spellings: leading zeros may be added, and the letters of a
hexadecimal numeral may be of either case.  `Numeral.Spells` describes these
spellings without reference to the reader, and the results below say that the
reader recovers the number from each of them.  The numerals that the printers
of the library write are spellings in this sense.
-/

namespace ByteMachine
namespace Numeral

/-- `cs` writes `n` in the given radix: up to the case of its letters, it is
the canonical numeral behind some number of zeros. -/
def Spells (radix n : Nat) (cs : List Char) : Prop :=
  ∃ zeros, cs.map Char.toLower =
    List.replicate zeros '0' ++ Nat.toDigits radix n

/-! ## Reading a row of digits -/

theorem digitValue?_digitChar
    {d : Nat} (hd : d < 16) : digitValue? d.digitChar = some d := by
  have hall : ∀ e ∈ List.range 16, digitValue? e.digitChar = some e := by
    decide
  exact hall d (List.mem_range.mpr hd)

/-- The value of a digit does not depend on its letter case. -/
theorem digitValue?_toLower
    (c : Char) : digitValue? c.toLower = digitValue? c :=
  Letters.toLower_induction
    (p := fun c lower => digitValue? lower = digitValue? c)
    (fun _ => rfl) (by decide) c

theorem appendDigit?_toLower
    (radix value : Nat) (c : Char) :
    appendDigit? radix value c.toLower = appendDigit? radix value c := by
  simp only [appendDigit?, digitValue?_toLower]

theorem appendDigit?_digitChar
    {radix d : Nat} (hradix : radix ≤ 16) (hd : d < radix) (value : Nat) :
    appendDigit? radix value d.digitChar = some (radix * value + d) := by
  rw [appendDigit?, digitValue?_digitChar (Nat.lt_of_lt_of_le hd hradix)]
  exact if_pos hd

theorem foldlM_appendDigit?_map_toLower
    (radix value : Nat) (cs : List Char) :
    (cs.map Char.toLower).foldlM (appendDigit? radix) value =
      cs.foldlM (appendDigit? radix) value := by
  rw [List.foldlM_map]
  simp only [appendDigit?_toLower]

theorem foldlM_appendDigit?_replicate_zero
    {radix : Nat} (hradix : 0 < radix) (zeros : Nat) :
    (List.replicate zeros '0').foldlM (appendDigit? radix) 0 = some 0 := by
  induction zeros with
  | zero => rfl
  | succ zeros ih =>
      have hzero : appendDigit? radix 0 '0' = some 0 := by
        simp [appendDigit?, digitValue?, hradix]
      rw [List.replicate_succ, List.foldlM_cons, hzero]
      exact ih

/-- Reading the canonical numeral of a number gives the number. -/
theorem foldlM_appendDigit?_toDigits
    {radix : Nat} (hradix : 1 < radix) (hmax : radix ≤ 16) (n : Nat) :
    (Nat.toDigits radix n).foldlM (appendDigit? radix) 0 = some n := by
  induction n using Nat.base_induction radix hradix with
  | single m hm =>
      rw [Nat.toDigits_of_lt_base hm, List.foldlM_cons,
        appendDigit?_digitChar hmax hm]
      simp
  | digit m k hk hm ih =>
      rw [← Nat.toDigits_append_toDigits hradix hm hk, List.foldlM_append, ih,
        Nat.toDigits_of_lt_base hk]
      simp [appendDigit?_digitChar hmax hk]

theorem ofDigits?_of_spells
    {radix n : Nat} {cs : List Char} (hradix : 1 < radix) (hmax : radix ≤ 16)
    (h : Spells radix n cs) : ofDigits? radix cs = some n := by
  obtain ⟨zeros, hcs⟩ := h
  have hne : cs ≠ [] := by
    rintro rfl
    have hnil := congrArg List.length hcs
    have hpos := Nat.length_toDigits_pos (b := radix) (n := n)
    simp only [List.map_nil, List.length_nil, List.length_append] at hnil
    omega
  have hread :
      cs.foldlM (appendDigit? radix) 0 = some n := by
    rw [← foldlM_appendDigit?_map_toLower, hcs, List.foldlM_append,
      foldlM_appendDigit?_replicate_zero (Nat.lt_of_succ_lt hradix)]
    exact foldlM_appendDigit?_toDigits hradix hmax n
  rw [ofDigits?, if_neg (by simpa using hne), hread]

theorem isDigit_of_digitValue?_lt
    {c : Char} {d : Nat} (h : digitValue? c = some d) (hd : d < 10) :
    c.isDigit = true := by
  by_cases hdigit : '0' ≤ c ∧ c ≤ '9'
  · have hrange : '0'.val ≤ c.val ∧ c.val ≤ '9'.val := hdigit
    simpa [Char.isDigit] using hrange
  · rw [digitValue?, if_neg hdigit] at h
    split at h
    · obtain rfl := Option.some.inj h
      omega
    · split at h
      · obtain rfl := Option.some.inj h
        omega
      · cases h

theorem isDigit_of_appendDigit?_ten
    {value next : Nat} {c : Char} (h : appendDigit? 10 value c = some next) :
    c.isDigit = true := by
  unfold appendDigit? at h
  split at h
  · next d hvalue =>
      split at h
      · next hd => exact isDigit_of_digitValue?_lt hvalue hd
      · cases h
  · cases h

theorem isDigit_head_of_spells
    {n : Nat} {cs : List Char} (h : Spells 10 n cs) :
    ∃ first rest, cs = first :: rest ∧ first.isDigit = true := by
  have hread := ofDigits?_of_spells (by decide) (by decide) h
  cases cs with
  | nil => simp [ofDigits?] at hread
  | cons first rest =>
      refine ⟨first, rest, rfl, ?_⟩
      cases hfirst : appendDigit? 10 0 first with
      | none => simp [ofDigits?, hfirst] at hread
      | some next => exact isDigit_of_appendDigit?_ten hfirst

/-- A row of digits cannot start with a sign, so the reader of signed
numerals takes it as it is. -/
theorem unsigned?_of_ofDigits?
    {radix n : Nat} {cs : List Char} (h : ofDigits? radix cs = some n) :
    unsigned? radix cs = some n := by
  unfold unsigned?
  split
  · have hsign : appendDigit? radix 0 '+' = none := rfl
    simp [ofDigits?, List.foldlM_cons, hsign] at h
  · exact h

theorem below?_of_spells
    {radix n bound : Nat} {cs : List Char} (hradix : 1 < radix)
    (hmax : radix ≤ 16) (h : Spells radix n cs) :
    below? bound radix cs = if n < bound then some n else none := by
  rw [below?, unsigned?_of_ofDigits? (ofDigits?_of_spells hradix hmax h)]
  simp [Option.filter]

/-! ## Written numerals -/

theorem toLower_digitChar
    {d : Nat} (hd : d < 16) : d.digitChar.toLower = d.digitChar := by
  have hall : ∀ e ∈ List.range 16, e.digitChar.toLower = e.digitChar := by
    decide
  exact hall d (List.mem_range.mpr hd)

theorem toLower_toUpper_digitChar
    {d : Nat} (hd : d < 16) : d.digitChar.toUpper.toLower = d.digitChar := by
  have hall : ∀ e ∈ List.range 16,
      e.digitChar.toUpper.toLower = e.digitChar := by
    decide
  exact hall d (List.mem_range.mpr hd)

/-- Every character of a canonical numeral is one of the sixteen digits. -/
theorem exists_digitChar_of_mem_toDigits
    {radix n : Nat} {c : Char} (hradix : 1 < radix) (hmax : radix ≤ 16)
    (hc : c ∈ Nat.toDigits radix n) : ∃ d, d < 16 ∧ c = d.digitChar := by
  induction n using Nat.base_induction radix hradix with
  | single m hm =>
      rw [Nat.toDigits_of_lt_base hm, List.mem_singleton] at hc
      exact ⟨m, Nat.lt_of_lt_of_le hm hmax, hc⟩
  | digit m k hk hm ih =>
      rw [← Nat.toDigits_append_toDigits hradix hm hk, List.mem_append,
        Nat.toDigits_of_lt_base hk, List.mem_singleton] at hc
      rcases hc with hc | hc
      · exact ih hc
      · exact ⟨k, Nat.lt_of_lt_of_le hk hmax, hc⟩

theorem spells_toDigits
    {radix : Nat} (hradix : 1 < radix) (hmax : radix ≤ 16) (n : Nat) :
    Spells radix n (Nat.toDigits radix n) := by
  refine ⟨0, ?_⟩
  simp only [List.replicate_zero, List.nil_append]
  conv => rhs; rw [← List.map_id (Nat.toDigits radix n)]
  apply List.map_congr_left
  intro c hc
  obtain ⟨d, hd, rfl⟩ := exists_digitChar_of_mem_toDigits hradix hmax hc
  exact toLower_digitChar hd

theorem spells_decimal (n : Nat) : Spells 10 n (decimal n).toList := by
  rw [decimal, String.toList_ofList]
  exact spells_toDigits (by decide) (by decide) n

theorem spells_hexCapital
    (width n : Nat) : Spells 16 n (hexCapital width n).toList := by
  refine ⟨width - (Nat.toDigits 16 n).length, ?_⟩
  have hdigits :
      (Nat.toDigits 16 n).map (Char.toLower ∘ Char.toUpper) =
        Nat.toDigits 16 n := by
    conv => rhs; rw [← List.map_id (Nat.toDigits 16 n)]
    apply List.map_congr_left
    intro c hc
    obtain ⟨d, hd, rfl⟩ :=
      exists_digitChar_of_mem_toDigits (by decide) (by decide) hc
    exact toLower_toUpper_digitChar hd
  rw [hexCapital, String.toList_ofList, List.leftpad, List.map_append,
    List.map_map, hdigits, List.map_replicate, List.length_map]
  rfl

end Numeral

/-! ## Numbers and registers of source text -/

namespace Operand

/-- `cs` writes the number `n` as source text may: in decimal, or in
hexadecimal behind one of three marks. -/
inductive SpellsNumber (n : Nat) : List Char → Prop
  | decimal {digits : List Char} (h : Numeral.Spells 10 n digits) :
      SpellsNumber n digits
  | hex {digits : List Char} (h : Numeral.Spells 16 n digits) :
      SpellsNumber n ('0' :: 'x' :: digits)
  | hexCapital {digits : List Char} (h : Numeral.Spells 16 n digits) :
      SpellsNumber n ('0' :: 'X' :: digits)
  | dollar {digits : List Char} (h : Numeral.Spells 16 n digits) :
      SpellsNumber n ('$' :: digits)

/-- `cs` names the register `r`: the letter `r` of either case and a decimal
numeral. -/
inductive SpellsRegister (r : UInt8) : List Char → Prop
  | small {digits : List Char} (h : Numeral.Spells 10 r.toNat digits) :
      SpellsRegister r ('r' :: digits)
  | capital {digits : List Char} (h : Numeral.Spells 10 r.toNat digits) :
      SpellsRegister r ('R' :: digits)

/-- A decimal row of digits carries no mark of another radix. -/
theorem numberValue?_of_decimal
    {n : Nat} {cs : List Char} (h : Numeral.Spells 10 n cs) :
    numberValue? cs = Numeral.below? numberBound 10 cs := by
  have hread := Numeral.ofDigits?_of_spells (by decide) (by decide) h
  unfold numberValue?
  split
  · simp [Numeral.ofDigits?, Numeral.appendDigit?, Numeral.digitValue?] at hread
  · simp [Numeral.ofDigits?, Numeral.appendDigit?, Numeral.digitValue?] at hread
  · simp [Numeral.ofDigits?, Numeral.appendDigit?, Numeral.digitValue?] at hread
  · rfl

theorem number_of_spells
    {n : Nat} {word : String} (hn : n < numberBound)
    (h : SpellsNumber n word.toList) : number word = .ok n := by
  have hvalue : numberValue? word.toList = some n := by
    generalize word.toList = cs at h
    cases h with
    | decimal h =>
        rw [numberValue?_of_decimal h,
          Numeral.below?_of_spells (by decide) (by decide) h, if_pos hn]
    | hex h | hexCapital h | dollar h =>
        rw [numberValue?, Numeral.below?_of_spells (by decide) (by decide) h,
          if_pos hn]
  rw [number, hvalue]

theorem byte_of_spells
    {value : UInt8} {word : String}
    (h : SpellsNumber value.toNat word.toList) : byte word = .ok value := by
  have hlt : value.toNat < UInt8.size := value.toNat_lt
  have hbound : value.toNat < numberBound := Nat.lt_trans hlt (by decide)
  simp [byte, number_of_spells hbound h, bind, Except.bind, hlt, pure,
    Except.pure]

theorem address_of_spells
    {value : Address} {word : String}
    (h : SpellsNumber value.toNat word.toList) : address word = .ok value := by
  have hlt : value.toNat < UInt16.size := value.toNat_lt
  have hbound : value.toNat < numberBound := Nat.lt_trans hlt (by decide)
  simp [address, number_of_spells hbound h, bind, Except.bind, hlt, pure,
    Except.pure]

/-- A register is read back exactly when the bank has it. -/
theorem register_of_spells
    {r : UInt8} {word : String} (h : SpellsRegister r word.toList) :
    register word =
      if r.toNat < 8 then .ok r else .error (.invalidRegister word) := by
  have hvalue : registerNumber? word.toList =
      if r.toNat < 8 then some r.toNat else none := by
    generalize word.toList = cs at h
    cases h with
    | small h | capital h =>
        exact Numeral.below?_of_spells (by decide) (by decide) h
  rw [register, hvalue]
  by_cases hr : r.toNat < 8
  · simp [hr]
  · simp [hr]

/-- A spelled number starts with a digit or a dollar sign. -/
theorem looksNumeric_of_spells
    {n : Nat} {word : String} (h : SpellsNumber n word.toList) :
    looksNumeric word = true := by
  unfold looksNumeric
  generalize word.toList = cs at h
  cases h with
  | decimal h =>
      obtain ⟨first, rest, rfl, hfirst⟩ := Numeral.isDigit_head_of_spells h
      simp [hfirst]
  | hex | hexCapital | dollar => rfl

theorem spellsRegister_registerText
    (r : UInt8) : SpellsRegister r (Instruction.registerText r).toList := by
  rw [Instruction.registerText, String.toList_append]
  exact .small (Numeral.spells_decimal r.toNat)

theorem spellsNumber_addressText
    (address : Address) :
    SpellsNumber address.toNat (Instruction.addressText address).toList := by
  rw [Instruction.addressText, String.toList_append]
  exact .hex (Numeral.spells_hexCapital 4 address.toNat)

end Operand
end ByteMachine
