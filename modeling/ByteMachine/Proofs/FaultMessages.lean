import ByteMachine.Fault
import ByteMachine.Proofs.Numeral

/-!
# Messages tell faults apart

A report keeps the wording of a fault and not the fault.  Nothing is lost by
that: the first characters of a message tell what kind of fault it is, and the
numbers in it are written so that they can be read back.
-/

namespace ByteMachine

namespace Numeral

/-- Digits spell one number only. -/
theorem Spells.eq
    {radix m n : Nat} (hradix : 1 < radix) (hmax : radix ≤ 16)
    {cs : List Char} (hm : Spells radix m cs) (hn : Spells radix n cs) :
    m = n := by
  have hread := ofDigits?_of_spells hradix hmax hm
  rw [ofDigits?_of_spells hradix hmax hn] at hread
  exact (Option.some.inj hread).symm

theorem decimal_injective : Function.Injective decimal := by
  intro m n h
  have hspells := spells_decimal m
  rw [h] at hspells
  exact hspells.eq (by decide) (by decide) (spells_decimal n)

theorem spells_hex (width n : Nat) : Spells 16 n (hex width n).toList := by
  have hspells : Spells 16 n (Nat.toDigits 16 n) :=
    spells_toDigits (by decide) (by decide) n
  obtain ⟨zeros, hdigits⟩ := hspells
  refine ⟨width - (Nat.toDigits 16 n).length + zeros, ?_⟩
  rw [hex, String.toList_ofList, List.leftpad, List.map_append, hdigits,
    List.map_replicate, ← List.replicate_append_replicate, List.append_assoc]
  rfl

theorem hex_injective (width : Nat) : Function.Injective (hex width) := by
  intro m n h
  have hspells := spells_hex width m
  rw [h] at hspells
  exact hspells.eq (by decide) (by decide) (spells_hex width n)

/-- A byte takes two hexadecimal digits. -/
theorem length_hex_byte (b : UInt8) : (hex 2 b.toNat).length = 2 := by
  have hall : ∀ n : Fin 256, (hex 2 n.val).length = 2 := by decide +kernel
  exact hall ⟨b.toNat, b.toNat_lt⟩

end Numeral

theorem SinkFailure.message_injective :
    Function.Injective SinkFailure.message := by
  intro first second h
  cases first <;> cases second <;> simp [message] at h ⊢

theorem isPrefix_toList_append
    {heading text : String} (h : heading.toList <+: text.toList)
    (rest : String) : heading.toList <+: (text ++ rest).toList := by
  rw [String.toList_append]
  exact h.trans (List.prefix_append _ _)

/-! ## Characters of messages -/

/-- Every character of a text is a visible one of ASCII, or a blank. -/
def IsVisible (text : String) : Prop :=
  ∀ c ∈ text.toList, 0x20 ≤ c.toNat ∧ c.toNat ≤ 0x7E

instance (text : String) : Decidable (IsVisible text) :=
  List.decidableBAll (fun c : Char => 0x20 ≤ c.toNat ∧ c.toNat ≤ 0x7E)
    text.toList

theorem isVisible_append
    {text more : String} (h : IsVisible text) (hmore : IsVisible more) :
    IsVisible (text ++ more) := by
  intro c hc
  rw [String.toList_append, List.mem_append] at hc
  exact hc.elim (h c) (hmore c)

theorem visible_of_mem_toDigits
    {radix n : Nat} {c : Char} (hradix : 1 < radix) (hmax : radix ≤ 16)
    (hc : c ∈ Nat.toDigits radix n) : 0x20 ≤ c.toNat ∧ c.toNat ≤ 0x7E := by
  obtain ⟨d, hd, rfl⟩ :=
    Numeral.exists_digitChar_of_mem_toDigits hradix hmax hc
  have hdigits : ∀ d < 16,
      0x20 ≤ (Nat.digitChar d).toNat ∧ (Nat.digitChar d).toNat ≤ 0x7E := by
    decide
  exact hdigits d hd

theorem isVisible_decimal (n : Nat) : IsVisible (Numeral.decimal n) := by
  intro c hc
  rw [Numeral.decimal, String.toList_ofList] at hc
  exact visible_of_mem_toDigits (by decide) (by decide) hc

theorem isVisible_hex (width n : Nat) : IsVisible (Numeral.hex width n) := by
  intro c hc
  rw [Numeral.hex, String.toList_ofList, List.leftpad, List.mem_append] at hc
  rcases hc with hpad | hdigit
  · obtain rfl := (List.mem_replicate.mp hpad).2
    decide
  · exact visible_of_mem_toDigits (by decide) (by decide) hdigit

theorem Fault.isVisible_message (fault : Fault) : IsVisible fault.message := by
  cases fault with
  | invalidRegister register =>
      exact isVisible_append (by decide) (isVisible_decimal _)
  | addressOutOfBounds address =>
      exact isVisible_append (by decide) (isVisible_hex _ _)
  | divisionByZero register =>
      exact isVisible_append
        (isVisible_append (by decide) (isVisible_decimal _)) (by decide)
  | stackUnderflow sp | stackOverflow sp =>
      exact isVisible_append (by decide) (isVisible_decimal _)
  | illegalOpcode byte address =>
      exact isVisible_append (isVisible_append (isVisible_append (by decide)
        (isVisible_hex _ _)) (by decide)) (isVisible_hex _ _)
  | pcOutOfBounds pc =>
      exact isVisible_append (isVisible_append (by decide) (isVisible_hex _ _))
        (by decide)
  | output failure =>
      cases failure <;> exact isVisible_append (by decide) (by decide)

/-! ## Faults told apart -/

namespace Fault

/-- The first nine characters of a message, which depend on the kind of the
fault alone. -/
def heading : Fault → String
  | invalidRegister _ => "invalid r"
  | addressOutOfBounds _ => "invalid a"
  | divisionByZero _ => "can not d"
  | stackUnderflow _ => "stack und"
  | stackOverflow _ => "stack ove"
  | illegalOpcode _ _ => "illegal o"
  | pcOutOfBounds _ => "program c"
  | output _ => "diagnosti"

theorem length_heading (fault : Fault) : fault.heading.length = 9 := by
  cases fault <;> rw [heading] <;> decide

theorem isPrefix_heading_message (fault : Fault) :
    fault.heading.toList <+: fault.message.toList := by
  cases fault with
  | invalidRegister | addressOutOfBounds | stackUnderflow | stackOverflow
  | output => exact isPrefix_toList_append (by rw [heading]; decide) _
  | divisionByZero | pcOutOfBounds =>
      exact isPrefix_toList_append
        (isPrefix_toList_append (by rw [heading]; decide) _) _
  | illegalOpcode =>
      exact isPrefix_toList_append (isPrefix_toList_append
        (isPrefix_toList_append (by rw [heading]; decide) _) _) _

theorem heading_eq_of_message_eq
    {first second : Fault} (h : first.message = second.message) :
    first.heading = second.heading := by
  have hfirst := first.isPrefix_heading_message
  have hsecond := second.isPrefix_heading_message
  have hlength : first.heading.toList.length =
      second.heading.toList.length := by
    rw [String.length_toList, String.length_toList, length_heading,
      length_heading]
  rw [h] at hfirst
  have hfront := List.prefix_of_prefix_length_le hfirst hsecond
    (Nat.le_of_eq hlength)
  exact String.toList_injective (hfront.eq_of_length hlength)

/-- The two numbers in the message about an illegal byte do not run into each
other. -/
theorem illegalOpcode_eq_of_message_eq
    {byte other : UInt8} {address place : Address}
    (h : (illegalOpcode byte address).message =
      (illegalOpcode other place).message) :
    byte = other ∧ address = place := by
  have htexts : "illegal opcode 0x" ++ Numeral.hex 2 byte.toNat ++ " at 0x" ++
        Numeral.hex 4 address.toNat =
      "illegal opcode 0x" ++ Numeral.hex 2 other.toNat ++ " at 0x" ++
        Numeral.hex 4 place.toNat := h
  simp only [String.append_assoc, String.append_right_inj] at htexts
  have hlists := congrArg String.toList htexts
  simp only [String.toList_append] at hlists
  have hlength : (Numeral.hex 2 byte.toNat).toList.length =
      (Numeral.hex 2 other.toNat).toList.length := by
    rw [String.length_toList, String.length_toList, Numeral.length_hex_byte,
      Numeral.length_hex_byte]
  obtain ⟨hbyte, hrest⟩ := List.append_inj hlists hlength
  have haddress := String.toList_injective (List.append_cancel_left hrest)
  constructor
  · exact UInt8.toNat_inj.mp
      (Numeral.hex_injective 2 (String.toList_injective hbyte))
  · exact UInt16.toNat_inj.mp (Numeral.hex_injective 4 haddress)

/-- Distinct faults have distinct messages. -/
theorem message_injective : Function.Injective message := by
  intro first second h
  have hheading := heading_eq_of_message_eq h
  cases first with
  | invalidRegister register =>
      cases second with
      | invalidRegister =>
          have hnumber := Numeral.decimal_injective
            ((String.append_right_inj _).mp h)
          rw [UInt8.toNat_inj.mp hnumber]
      | _ => simp [heading] at hheading
  | addressOutOfBounds address =>
      cases second with
      | addressOutOfBounds =>
          have hnumber := Numeral.hex_injective 4
            ((String.append_right_inj _).mp h)
          rw [UInt16.toNat_inj.mp hnumber]
      | _ => simp [heading] at hheading
  | divisionByZero register =>
      cases second with
      | divisionByZero =>
          have hnumber := Numeral.decimal_injective
            ((String.append_right_inj _).mp ((String.append_left_inj _).mp h))
          rw [UInt8.toNat_inj.mp hnumber]
      | _ => simp [heading] at hheading
  | stackUnderflow sp =>
      cases second with
      | stackUnderflow =>
          have hnumber := Numeral.decimal_injective
            ((String.append_right_inj _).mp h)
          rw [UInt16.toNat_inj.mp hnumber]
      | _ => simp [heading] at hheading
  | stackOverflow sp =>
      cases second with
      | stackOverflow =>
          have hnumber := Numeral.decimal_injective
            ((String.append_right_inj _).mp h)
          rw [UInt16.toNat_inj.mp hnumber]
      | _ => simp [heading] at hheading
  | illegalOpcode byte address =>
      cases second with
      | illegalOpcode =>
          obtain ⟨rfl, rfl⟩ := illegalOpcode_eq_of_message_eq h
          rfl
      | _ => simp [heading] at hheading
  | pcOutOfBounds pc =>
      cases second with
      | pcOutOfBounds =>
          have hnumber := Numeral.hex_injective 4
            ((String.append_right_inj _).mp ((String.append_left_inj _).mp h))
          rw [UInt16.toNat_inj.mp hnumber]
      | _ => simp [heading] at hheading
  | output failure =>
      cases second with
      | output =>
          have hfailure := SinkFailure.message_injective
            ((String.append_right_inj _).mp h)
          rw [hfailure]
      | _ => simp [heading] at hheading

end Fault

end ByteMachine
