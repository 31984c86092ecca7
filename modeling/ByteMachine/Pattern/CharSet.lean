/-!
# Sets of characters

The sets that a pattern can ask for, as expressions over ranges of code points.
-/

namespace ByteMachine

inductive CharSet where
  /-- The characters whose code points lie in one of several ranges. -/
  | ranges (list : List (Nat × Nat))
  | complement (set : CharSet)
  | union (left right : CharSet)
  | intersection (left right : CharSet)
  | difference (left right : CharSet)
  | symmetricDifference (left right : CharSet)
  /-- A set with the other case of the ASCII letters in it. -/
  | caseless (set : CharSet)
  deriving DecidableEq, Repr

namespace CharSet

/-- The other case of an ASCII letter; all other characters have none. -/
def otherCase (c : Char) : Char :=
  if c.isUpper then c.toLower else c.toUpper

def contains : CharSet → Char → Bool
  | ranges list, c =>
      list.any fun range => range.1 ≤ c.toNat && c.toNat ≤ range.2
  | complement set, c => !set.contains c
  | union left right, c => left.contains c || right.contains c
  | intersection left right, c => left.contains c && right.contains c
  | difference left right, c => left.contains c && !right.contains c
  | symmetricDifference left right, c => left.contains c != right.contains c
  | caseless set, c => set.contains c || set.contains (otherCase c)

def none : CharSet :=
  ranges []

def ofList (cs : List Char) : CharSet :=
  ranges (cs.map fun c => (c.toNat, c.toNat))

/-- The digits of ASCII. -/
def digit : CharSet :=
  ranges [(0x30, 0x39)]

/-- The blanks of ASCII. -/
def blank : CharSet :=
  ranges [(0x09, 0x0D), (0x20, 0x20)]

/-- The letters, digits and underscore of ASCII, of which words are made. -/
def word : CharSet :=
  ranges [(0x30, 0x39), (0x41, 0x5A), (0x5F, 0x5F), (0x61, 0x7A)]

end CharSet
end ByteMachine
