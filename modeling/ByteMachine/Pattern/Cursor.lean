import ByteMachine.Pattern.Flaw

/-!
# Reading characters of a pattern

A cursor stands before the characters of a written pattern that are still to be
read.  In verbose patterns blanks, and comments from a number sign to the end of
the line, do not count.
-/

namespace ByteMachine
namespace Pattern

/-- A place in a written pattern. -/
structure Cursor where
  /-- The characters that are still to be read. -/
  rest : List Char
  /-- The number of characters before. -/
  offset : Nat := 0
  /-- Whether blanks and comments do not count. -/
  verbose : Bool := false
  deriving Repr

namespace Cursor

def peek (cursor : Cursor) : Option Char :=
  cursor.rest.head?

def atEnd (cursor : Cursor) : Bool :=
  cursor.rest.isEmpty

/-- Pass over a number of characters. -/
def advance (cursor : Cursor) (count : Nat) : Cursor :=
  { cursor with
    rest := cursor.rest.drop count
    offset := cursor.offset + count }

/-- The number of characters in the blanks and comments at the start of a text.
-/
def blankLength (inComment : Bool) : List Char → Nat
  | [] => 0
  | c :: rest =>
      if inComment then blankLength (c != '\n') rest + 1
      else if Text.isBlank c then blankLength false rest + 1
      else if c = '#' then blankLength true rest + 1
      else 0

/-- Pass over blanks and comments where they do not count. -/
def skip (cursor : Cursor) : Cursor :=
  if cursor.verbose then
    cursor.advance (blankLength false cursor.rest)
  else
    cursor

/-- Pass over one character and what does not count behind it. -/
def step (cursor : Cursor) : Cursor :=
  (cursor.advance 1).skip

/-- The empty part in front of a cursor. -/
def here (cursor : Cursor) : Span :=
  ⟨cursor.offset, cursor.offset⟩

/-- The next character as a part of the pattern. -/
def nextSpan (cursor : Cursor) : Span :=
  ⟨cursor.offset, cursor.offset + 1⟩

/-- The part from a place to the cursor. -/
def since (cursor : Cursor) (start : Nat) : Span :=
  ⟨start, cursor.offset⟩

/-- Read characters of a kind, at most `fuel` of them. -/
def readWhile (accepts : Char → Bool) : Nat → Cursor → List Char × Cursor
  | 0, cursor => ([], cursor)
  | fuel + 1, cursor =>
      match cursor.peek with
      | none => ([], cursor)
      | some c =>
          if accepts c then
            let (cs, cursor) := readWhile accepts fuel cursor.step
            (c :: cs, cursor)
          else
            ([], cursor)

def readAll (accepts : Char → Bool) (cursor : Cursor) : List Char × Cursor :=
  readWhile accepts cursor.rest.length cursor

def skipBlanks (cursor : Cursor) : Cursor :=
  cursor.advance (cursor.rest.takeWhile Text.isBlank).length

end Cursor

/-- A flaw as the answer of a reader. -/
def fail {α : Type} (reason : Reason) (span : Span) : Except Flaw α :=
  .error { reason := reason, span := span }

end Pattern
end ByteMachine
