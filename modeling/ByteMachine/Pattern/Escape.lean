import ByteMachine.Pattern.Cursor
import ByteMachine.Pattern.Written

/-!
# Escapes in patterns

What a backslash makes of the characters behind it: a character that would
otherwise have a meaning, a character by its code point, a class, or a condition
on a place.
-/

namespace ByteMachine
namespace Pattern

/-- A part of a written pattern with its place. -/
abbrev Placed (α : Type) := α × Span

def metaCharacters : List Char :=
  "\\.+*?()|[]\x7b\x7d^$#&-~".toList

/-- Whether a backslash takes the meaning from a character: it does so for all
of ASCII but letters, digits and angle brackets. -/
def isEscapable (c : Char) : Bool :=
  metaCharacters.contains c ||
    c.toNat < 0x80 && !c.isAlphanum && c != '<' && c != '>'

/-- The characters that have an escape with a letter. -/
def letterEscapes : List (Char × Char) :=
  [('a', '\x07'), ('f', '\x0C'), ('t', '\x09'), ('n', '\x0A'), ('r', '\x0D'),
    ('v', '\x0B')]

/-- The conditions on places that have an escape. -/
def anchorEscapes : List (Char × AnchorMark) :=
  [('A', .textStart), ('z', .textEnd), ('b', .wordBoundary),
    ('B', .noWordBoundary), ('<', .wordStart), ('>', .wordEnd)]

/-- The classes that have an escape; capitals stand for the characters outside
of them. -/
def classEscapes : List (Char × Atom) :=
  [('d', .letterClass .digit false), ('D', .letterClass .digit true),
    ('s', .letterClass .blank false), ('S', .letterClass .blank true),
    ('w', .letterClass .word false), ('W', .letterClass .word true)]

def isHexDigit (c : Char) : Bool :=
  (Numeral.digitValue? c).isSome

/-- The character with a code point in radix sixteen, if it is one. -/
def charOfHex? (digits : List Char) : Option Char := do
  let code ← Numeral.ofDigits? 16 digits
  if code.isValidChar then some (Char.ofNat code) else none

/-- Read a fixed number of digits in radix sixteen; the cursor stands before the
first. -/
def readHexDigits : Nat → Cursor → Except Flaw (List Char × Cursor)
  | 0, cursor => .ok ([], cursor)
  | count + 1, cursor =>
      match cursor.peek with
      | none => fail .escapeUnexpectedEnd cursor.here
      | some c =>
          if isHexDigit c then do
            let (digits, cursor) ← readHexDigits count cursor.step
            return (c :: digits, cursor)
          else
            fail .escapeHexInvalidDigit cursor.nextSpan

/-- Read a code point between braces; the cursor stands before the opening one.
-/
def readBracedHex (cursor : Cursor) : Except Flaw (Char × Cursor) :=
  let opening := cursor.offset
  let (digits, cursor) := cursor.step.readAll isHexDigit
  match cursor.peek with
  | none => fail .escapeUnexpectedEnd (cursor.since opening)
  | some '\x7d' =>
      let closing := cursor.offset
      let cursor := cursor.step
      if digits.isEmpty then fail .escapeHexEmpty (cursor.since opening)
      else
        match charOfHex? digits with
        | some c => .ok (c, cursor)
        | none => fail .escapeHexInvalid ⟨opening + 1, closing⟩
  | some _ => fail .escapeHexInvalidDigit cursor.nextSpan

/-- The number of digits behind a letter that announces a code point. -/
def hexLength (letter : Char) : Nat :=
  if letter = 'x' then 2 else if letter = 'u' then 4 else 8

/-- Read a character by its code point; the cursor stands before the letter that
announces it. -/
def readHex (letter : Char) (cursor : Cursor) :
    Except Flaw (Atom × Cursor) := do
  let cursor := cursor.step
  match cursor.peek with
  | none => fail .escapeUnexpectedEnd cursor.here
  | some '\x7b' =>
      let (c, cursor) ← readBracedHex cursor
      return (.literal c false, cursor)
  | some _ =>
      let start := cursor.offset
      let (digits, cursor) ← readHexDigits (hexLength letter) cursor
      match charOfHex? digits with
      | some c => return (.literal c (letter = 'x'), cursor)
      | none => fail .escapeHexInvalid (cursor.since start)

/-- Read a property; the cursor stands before the letter that announces it. -/
def readProperty (cursor : Cursor) : Except Flaw (Atom × Cursor) :=
  let cursor := cursor.step
  match cursor.peek with
  | none => fail .escapeUnexpectedEnd cursor.here
  | some '\x7b' =>
      let (name, cursor) := cursor.step.readAll fun c => c != '\x7d'
      if cursor.atEnd then fail .escapeUnexpectedEnd cursor.here
      else .ok (.property (String.ofList name), cursor.advance 1)
  | some '\\' => fail .propertyInvalid cursor.nextSpan
  | some c => .ok (.property (String.ofList [c]), cursor.step)

/-- The conditions on words that are named between braces. -/
def wordAnchors : List (String × AnchorMark) :=
  [("start", .wordStart), ("end", .wordEnd), ("start-half", .noWordBefore),
    ("end-half", .noWordAfter)]

/-- Read the name of a condition on words; the cursor stands before the opening
brace, and `start` is the place of the backslash.  Where no name can follow, the
brace belongs to a repetition. -/
def readWordAnchor (start : Nat) (cursor : Cursor) :
    Except Flaw (AnchorMark × Cursor) :=
  let isNameChar (c : Char) : Bool := c.isAlpha || c == '-'
  let inner := cursor.step
  match inner.peek with
  | none => fail .wordBoundaryUnexpectedEnd (inner.since start)
  | some c =>
      if isNameChar c then
        let (name, closing) := inner.readAll isNameChar
        if closing.peek = some '\x7d' then
          match wordAnchors.lookup (String.ofList name) with
          | some mark => .ok (mark, closing.advance 1)
          | none => fail .wordBoundaryUnrecognized (closing.since inner.offset)
        else
          fail .wordBoundaryUnclosed (closing.since cursor.offset)
      else
        .ok (.wordBoundary, cursor)

/-- Read a condition on a place; the cursor stands behind the letter of its
escape. -/
def readAnchor (start : Nat) (mark : AnchorMark) (cursor : Cursor) :
    Except Flaw (Atom × Cursor) := do
  if mark = .wordBoundary ∧ cursor.peek = some '\x7b' then
    let (mark, cursor) ← readWordAnchor start cursor
    return (.anchor mark, cursor)
  else
    return (.anchor mark, cursor)

/-- Read what follows a backslash at the place `start`; the cursor stands before
the next character `c`. -/
def readEscaped (start : Nat) (c : Char) (cursor : Cursor) :
    Except Flaw (Atom × Cursor) :=
  if c.isDigit then fail .backreference ⟨start, cursor.offset + 1⟩
  else if c = 'x' ∨ c = 'u' ∨ c = 'U' then readHex c cursor
  else if c = 'p' ∨ c = 'P' then readProperty cursor
  else
    let cursor := cursor.advance 1
    if isEscapable c then .ok (.literal c false, cursor)
    else
      match letterEscapes.lookup c, classEscapes.lookup c,
          anchorEscapes.lookup c with
      | some c, _, _ => .ok (.literal c false, cursor)
      | none, some atom, _ => .ok (atom, cursor)
      | none, none, some mark => readAnchor start mark cursor
      | none, none, none => fail .escapeUnrecognized (cursor.since start)

/-- Read an escape; the cursor stands before the backslash. -/
def readEscape (cursor : Cursor) : Except Flaw (Placed Atom × Cursor) := do
  let start := cursor.offset
  let cursor := cursor.advance 1
  match cursor.peek with
  | none => fail .escapeUnexpectedEnd (cursor.since start)
  | some c =>
      let (atom, cursor) ← readEscaped start c cursor
      return ((atom, cursor.since start), cursor)

end Pattern
end ByteMachine
