/-!
# Numerals

Writing and reading natural numbers.  Written numerals have a fixed radix and,
in radix sixteen, a least width and a letter case.  Read numerals may carry one
plus sign and any number of leading zeros, so reading accepts more spellings
than writing produces; the bound on the value is left to the caller, which knows
the width of the word that has to hold it.
-/

namespace ByteMachine
namespace Numeral

/-- The decimal numeral of a number, without leading zeros. -/
def decimal (n : Nat) : String :=
  String.ofList (Nat.toDigits 10 n)

/-- The numeral in radix sixteen with small letters, filled with zeros to at
least `width` digits. -/
def hex (width n : Nat) : String :=
  String.ofList ((Nat.toDigits 16 n).leftpad width '0')

/-- The numeral in radix sixteen with capital letters, filled with zeros to at
least `width` digits. -/
def hexCapital (width n : Nat) : String :=
  String.ofList (((Nat.toDigits 16 n).map Char.toUpper).leftpad width '0')

/-- The value of a character as a digit: the ten ASCII digits, then the letters
`a` to `f` of either case. -/
def digitValue? (c : Char) : Option Nat :=
  if '0' ≤ c ∧ c ≤ '9' then some (c.toNat - '0'.toNat)
  else if 'a' ≤ c ∧ c ≤ 'f' then some (c.toNat - 'a'.toNat + 10)
  else if 'A' ≤ c ∧ c ≤ 'F' then some (c.toNat - 'A'.toNat + 10)
  else none

/-- Continue a number by one more digit of the given radix. -/
def appendDigit? (radix value : Nat) (c : Char) : Option Nat :=
  match digitValue? c with
  | some digit => if digit < radix then some (radix * value + digit) else none
  | none => none

/-- The value of a nonempty row of digits. -/
def ofDigits? (radix : Nat) (cs : List Char) : Option Nat :=
  if cs.isEmpty then none else cs.foldlM (appendDigit? radix) 0

/-- The value of a row of digits that may follow one plus sign. -/
def unsigned? (radix : Nat) : List Char → Option Nat
  | '+' :: digits => ofDigits? radix digits
  | digits => ofDigits? radix digits

/-- The value of an unsigned numeral, when it is below `bound`. -/
def below? (bound radix : Nat) (cs : List Char) : Option Nat :=
  (unsigned? radix cs).filter (· < bound)

end Numeral
end ByteMachine
