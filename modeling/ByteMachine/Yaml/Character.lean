/-!
# Characters in YAML

The classes of characters on which the written form of a text depends.
-/

namespace ByteMachine
namespace Yaml

/-- A line ends at a line feed, a carriage return, and each of the three line
ends outside ASCII. -/
def isBreak (c : Char) : Bool :=
  c.toNat = 0x0A || c.toNat = 0x0D || c.toNat = 0x85 || c.toNat = 0x2028 ||
    c.toNat = 0x2029

/-- The ranges of code points that stand for themselves, in ascending order.
They leave out the control characters other than the line feed, the byte order
mark, and the two code points at the end of the basic plane that are no
characters. -/
def printableRanges : List (Nat × Nat) :=
  [(0x0A, 0x0A), (0x20, 0x7E), (0xA0, 0xD7FF), (0xE000, 0xFEFE),
    (0xFF00, 0xFFFD), (0x10000, 0x10FFFF)]

def isPrintable (c : Char) : Bool :=
  printableRanges.any fun range => range.1 ≤ c.toNat && c.toNat ≤ range.2

/-- Whether an indicator before this character is taken for one: blanks, tabs
and line ends set it apart, and so does the null character. -/
def isSeparator (c : Char) : Bool :=
  c.toNat = 0x20 || c.toNat = 0x09 || c.toNat = 0x00 || isBreak c

/-- Every pair of characters that stand side by side. -/
def neighbours (cs : List Char) : List (Char × Char) :=
  cs.zip cs.tail

end Yaml
end ByteMachine
