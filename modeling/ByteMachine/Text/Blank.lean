/-!
# Blank characters and lines

Source text is cut into lines, and the pieces of a line are freed of the blanks
around them.  Both are stated on lists of characters, where `List.splitOn`
already has its theory; only the class of blanks and the treatment of a final
line end are decided here.
-/

namespace ByteMachine
namespace Text

/-- The ranges of code points that carry the Unicode property `White_Space`, in
ascending order. -/
def blankRanges : List (Nat × Nat) :=
  [(0x9, 0xD), (0x20, 0x20), (0x85, 0x85), (0xA0, 0xA0), (0x1680, 0x1680),
    (0x2000, 0x200A), (0x2028, 0x2029), (0x202F, 0x202F), (0x205F, 0x205F),
    (0x3000, 0x3000)]

/-- A character is blank when its code point lies in one of `blankRanges`. -/
def isBlank (c : Char) : Bool :=
  blankRanges.any fun range => range.1 ≤ c.toNat && c.toNat ≤ range.2

def trimStart (cs : List Char) : List Char :=
  cs.dropWhile isBlank

def trimEnd (cs : List Char) : List Char :=
  (cs.reverse.dropWhile isBlank).reverse

def trim (cs : List Char) : List Char :=
  trimEnd (trimStart cs)

/-- The lines of a text.  A line feed ends a line, so a text that ends in one
has no further empty line, and the empty text has no line at all. -/
def lines (cs : List Char) : List (List Char) :=
  let parts := cs.splitOn '\n'
  if parts.getLast? = some [] then parts.dropLast else parts

/-- Write every ASCII letter as a capital; all other characters stay. -/
def capitals (s : String) : String :=
  String.ofList (s.toList.map Char.toUpper)

end Text
end ByteMachine
