import ByteMachine.Text.Numeral

/-!
# Numbers in YAML

Which texts a reader takes for a number.  A numeral may be decimal, with a point
and a power of ten, or have one of the radices two, eight and sixteen, and there
are names for the infinities and for the result of an undefined operation.  A
numeral counts only if its value is in range: decimal ones must lie within the
finite numbers of double precision, the others within 128 bits.
-/

namespace ByteMachine
namespace Yaml

/-- A decimal numeral without its sign: its digits, and how many of them would
stand before the point if it were written without a power of ten. -/
structure DecimalNumeral where
  digits : List Char
  places : Int
  deriving DecidableEq, Repr

namespace DecimalNumeral

/-- The power of ten behind the digits of a numeral: nothing, or a letter `e`
with an integer. -/
def exponent? : List Char → Option Int
  | [] => some 0
  | mark :: digits =>
      if mark = 'e' ∨ mark = 'E' then
        match digits with
        | '-' :: digits => (Numeral.ofDigits? 10 digits).map fun n => -(n : Int)
        | '+' :: digits => (Numeral.ofDigits? 10 digits).map fun n => (n : Int)
        | digits => (Numeral.ofDigits? 10 digits).map fun n => (n : Int)
      else
        none

/-- The digits behind the point, if there is one, and what follows them. -/
def fraction : List Char → List Char × List Char
  | '.' :: rest => (rest.takeWhile Char.isDigit, rest.dropWhile Char.isDigit)
  | rest => ([], rest)

/-- The decimal numeral that a text is: at least one digit, with at most one
point before, between or behind the digits, and possibly a power of ten. -/
def ofChars? (cs : List Char) : Option DecimalNumeral :=
  let whole := cs.takeWhile Char.isDigit
  let (behind, rest) := fraction (cs.dropWhile Char.isDigit)
  if whole.isEmpty && behind.isEmpty then
    none
  else
    (exponent? rest).map fun exponent =>
      ⟨whole ++ behind, whole.length + exponent⟩

/-- The number of digits of `infinityThreshold`. -/
def thresholdPlaces : Nat := 309

/-- The least number that is rounded to infinity in double precision: it lies
half way between the greatest finite number and the next power of two. -/
def infinityThreshold : Nat :=
  (1 <<< 1024) - (1 <<< 970)

/-- Whether a numeral has a finite value in double precision.  Numerals without
a nonzero digit do; for any other one the number of digits before the point
decides, and where that is the same as in the threshold, the whole part does. -/
def isFinite (numeral : DecimalNumeral) : Bool :=
  let zeros := numeral.digits.takeWhile fun c => c == '0'
  let significant := numeral.digits.dropWhile fun c => c == '0'
  let places := numeral.places - zeros.length
  if significant.isEmpty ∨ places < thresholdPlaces then
    true
  else if thresholdPlaces < places then
    false
  else
    let whole := (significant.take thresholdPlaces).rightpad thresholdPlaces '0'
    match Numeral.ofDigits? 10 whole with
    | some value => value < infinityThreshold
    | none => false

end DecimalNumeral

/-- A text without the sign it may start with. -/
def unsigned : List Char → List Char
  | '+' :: rest => rest
  | '-' :: rest => rest
  | cs => cs

def isDecimal (cs : List Char) : Bool :=
  (DecimalNumeral.ofChars? (unsigned cs)).any DecimalNumeral.isFinite

/-- Whether a text is a row of at least two digits that starts with a zero. -/
def isZeroPadded (cs : List Char) : Bool :=
  match unsigned cs with
  | '0' :: digit :: rest => (digit :: rest).all Char.isDigit
  | _ => false

/-- The value of a numeral with a mark for its radix. -/
def marked? : List Char → Option Nat
  | '0' :: 'x' :: digits => Numeral.ofDigits? 16 digits
  | '0' :: 'o' :: digits => Numeral.ofDigits? 8 digits
  | '0' :: 'b' :: digits => Numeral.ofDigits? 2 digits
  | _ => none

/-- Whether a text is an integer of 128 bits, the positive ones unsigned and the
negative ones in two's complement, with a mark for its radix. -/
def isMarked : List Char → Bool
  | '-' :: cs => (marked? cs).any fun value => value ≤ 1 <<< 127
  | '+' :: cs => (marked? cs).any fun value => value < 1 <<< 128
  | cs => (marked? cs).any fun value => value < 1 <<< 128

/-- Whether a text is the name of an infinity, possibly with a sign. -/
def isInfinity (cs : List Char) : Bool :=
  [".inf", ".Inf", ".INF"].contains (String.ofList (unsigned cs))

/-- Whether a text is the name of an undefined result. -/
def isUndefined (cs : List Char) : Bool :=
  [".nan", ".NaN", ".NAN"].contains (String.ofList cs)

/-- Whether a reader takes a text for a number, or for a number that was filled
with zeros. -/
def isNumber (cs : List Char) : Bool :=
  isDecimal cs || isZeroPadded cs || isMarked cs || isInfinity cs ||
    isUndefined cs

end Yaml
end ByteMachine
