import ByteMachine.Proofs.Numeral
import Mathlib.Data.List.Induction
import Mathlib.Data.Nat.Digits.Defs

/-!
# Rows of digits

`Numeral.Spells` goes from a number to the rows of digits that write it.  Here
the rows come first: `Numeral.Row` looks at the characters one by one and weighs
them by their places, so that it says of any text whether it is a numeral and of
what value.  The reader accepts exactly the rows behind at most one plus sign,
whatever their length, and gives their value.
-/

namespace ByteMachine
namespace Numeral

/-- The place of a character among the sixteen digits, where letters count in
either case; sixteen for every other character. -/
def digit (c : Char) : Nat :=
  "0123456789abcdef".toList.idxOf c.toLower

/-- At least one digit of the radix and nothing else, with the value `n` when
every digit is weighed by its place. -/
structure Row (radix n : Nat) (cs : List Char) : Prop where
  ne_nil : cs ≠ []
  digits : ∀ c ∈ cs, digit c < radix
  value : Nat.ofDigits radix (cs.reverse.map digit) = n

instance (radix n : Nat) (cs : List Char) : Decidable (Row radix n cs) :=
  letI := List.decidableBAll (fun c => digit c < radix) cs
  decidable_of_iff
    (cs ≠ [] ∧ (∀ c ∈ cs, digit c < radix) ∧
      Nat.ofDigits radix (cs.reverse.map digit) = n)
    ⟨fun h => ⟨h.1, h.2.1, h.2.2⟩, fun h => ⟨h.ne_nil, h.digits, h.value⟩⟩

/-- A row of digits behind at most one plus sign. -/
inductive SignedRow (radix n : Nat) : List Char → Prop
  | plain {digits : List Char} (h : Row radix n digits) :
      SignedRow radix n digits
  | plus {digits : List Char} (h : Row radix n digits) :
      SignedRow radix n ('+' :: digits)

/-! ## Digits -/

theorem digitValue?_eq_some_iff {c : Char} {d : Nat} :
    digitValue? c = some d ↔ digit c = d ∧ d < 16 := by
  constructor
  · intro h
    unfold digitValue? at h
    split at h
    case isTrue hrange =>
      obtain rfl := Option.some.inj h
      exact Letters.forall_between
        (p := fun c => digit c = c.toNat - '0'.toNat ∧
          c.toNat - '0'.toNat < 16) hrange.1 hrange.2 (by decide)
    split at h
    case isTrue hrange =>
      obtain rfl := Option.some.inj h
      exact Letters.forall_between
        (p := fun c => digit c = c.toNat - 'a'.toNat + 10 ∧
          c.toNat - 'a'.toNat + 10 < 16) hrange.1 hrange.2 (by decide)
    split at h
    case isTrue hrange =>
      obtain rfl := Option.some.inj h
      exact Letters.forall_between
        (p := fun c => digit c = c.toNat - 'A'.toNat + 10 ∧
          c.toNat - 'A'.toNat + 10 < 16) hrange.1 hrange.2 (by decide)
    case isFalse => cases h
  · rintro ⟨rfl, hlt⟩
    have hall : "0123456789abcdef".toList.all (fun lower =>
        digitValue? lower ==
          some ("0123456789abcdef".toList.idxOf lower)) = true := by
      decide
    rw [← digitValue?_toLower]
    exact beq_iff_eq.mp
      (List.all_eq_true.mp hall _ (List.idxOf_lt_length_iff.mp hlt))

/-- The digits of radix ten are the ASCII digits. -/
theorem digit_lt_ten_iff {c : Char} : digit c < 10 ↔ c.isDigit = true := by
  constructor
  · intro hlt
    have hvalue : digitValue? c = some (digit c) :=
      digitValue?_eq_some_iff.mpr ⟨rfl, by omega⟩
    exact isDigit_of_digitValue?_lt hvalue hlt
  · intro hdigit
    have hrange : '0'.val ≤ c.val ∧ c.val ≤ '9'.val := by
      simpa [Char.isDigit] using hdigit
    exact Letters.forall_between (p := fun c => digit c < 10) hrange.1 hrange.2
      (by decide)

/-! ## Reading a row -/

section

variable {radix n : Nat} {cs : List Char} (hmax : radix ≤ 16)
include hmax

theorem appendDigit?_eq_some_iff {value : Nat} {c : Char} :
    appendDigit? radix value c = some n ↔
      digit c < radix ∧ digit c + radix * value = n := by
  unfold appendDigit?
  split
  case h_1 d hvalue =>
    obtain ⟨rfl, -⟩ := digitValue?_eq_some_iff.mp hvalue
    rw [Option.ite_none_right_eq_some, Option.some.injEq,
      Nat.add_comm (radix * value)]
  case h_2 hvalue =>
    have hforeign : ¬digit c < radix := by
      intro hlt
      have hsome := digitValue?_eq_some_iff.mpr
        ⟨rfl, Nat.lt_of_lt_of_le hlt hmax⟩
      rw [hvalue] at hsome
      cases hsome
    simp [hforeign]

/-- Digits are read one behind the other, so the induction goes from the last
one. -/
theorem foldlM_appendDigit?_eq_some_iff :
    cs.foldlM (appendDigit? radix) 0 = some n ↔
      (∀ c ∈ cs, digit c < radix) ∧
        Nat.ofDigits radix (cs.reverse.map digit) = n := by
  induction cs using List.reverseRecOn generalizing n with
  | nil => simp [Nat.ofDigits_nil]
  | append_singleton front last ih =>
      rw [List.foldlM_append]
      simp only [List.foldlM_cons, List.foldlM_nil, Option.bind_eq_bind,
        Option.bind_eq_some_iff, Option.pure_def, Option.some.injEq,
        exists_eq_right, ih, appendDigit?_eq_some_iff hmax,
        List.reverse_append, List.reverse_singleton, List.singleton_append,
        List.map_cons, Nat.ofDigits_cons, List.forall_mem_append,
        List.forall_mem_singleton]
      constructor
      · rintro ⟨value, ⟨hfront, rfl⟩, hlast, rfl⟩
        exact ⟨⟨hfront, hlast⟩, rfl⟩
      · rintro ⟨⟨hfront, hlast⟩, rfl⟩
        exact ⟨_, ⟨hfront, rfl⟩, hlast, rfl⟩

theorem ofDigits?_eq_some_iff :
    ofDigits? radix cs = some n ↔ Row radix n cs := by
  rw [ofDigits?]
  by_cases hnil : cs = []
  · subst hnil
    exact iff_of_false (by simp) fun h => h.ne_nil rfl
  · rw [if_neg (by simpa using hnil), foldlM_appendDigit?_eq_some_iff hmax]
    constructor
    · rintro ⟨hdigits, hvalue⟩
      exact ⟨hnil, hdigits, hvalue⟩
    · intro h
      exact ⟨h.digits, h.value⟩

theorem unsigned?_eq_some_iff :
    unsigned? radix cs = some n ↔ SignedRow radix n cs := by
  constructor
  · intro h
    unfold unsigned? at h
    split at h
    case h_1 digits => exact .plus ((ofDigits?_eq_some_iff hmax).mp h)
    case h_2 => exact .plain ((ofDigits?_eq_some_iff hmax).mp h)
  · intro h
    cases h with
    | plain h =>
        exact unsigned?_of_ofDigits? ((ofDigits?_eq_some_iff hmax).mpr h)
    | plus h => exact (ofDigits?_eq_some_iff hmax).mpr h

theorem below?_of_signedRow {bound : Nat} (h : SignedRow radix n cs) :
    below? bound radix cs = if n < bound then some n else none := by
  rw [below?, (unsigned?_eq_some_iff hmax).mpr h]
  simp [Option.filter]

theorem signedRow_of_below? {bound : Nat} (h : below? bound radix cs = some n) :
    SignedRow radix n cs := by
  rw [below?, Option.filter_eq_some_iff] at h
  exact (unsigned?_eq_some_iff hmax).mp h.1

/-- The rows that write a number have its value. -/
theorem Spells.row (hradix : 1 < radix) (h : Spells radix n cs) :
    Row radix n cs :=
  (ofDigits?_eq_some_iff hmax).mp (ofDigits?_of_spells hradix hmax h)

end

end Numeral
end ByteMachine
