import ByteMachine.Pattern.Escape

/-!
# Bracketed classes

Classes of characters between brackets: characters, ranges, escapes, named
classes of ASCII and further classes in brackets, joined by operations on sets.
A level holds what was read between two brackets so far; the levels around it
are kept in a list, the nearest first.
-/

namespace ByteMachine
namespace Pattern

/-- The classes of ASCII that have a name. -/
def namedClasses : List (String × List (Nat × Nat)) :=
  [("alnum", [(0x30, 0x39), (0x41, 0x5A), (0x61, 0x7A)]),
    ("alpha", [(0x41, 0x5A), (0x61, 0x7A)]),
    ("ascii", [(0x00, 0x7F)]),
    ("blank", [(0x09, 0x09), (0x20, 0x20)]),
    ("cntrl", [(0x00, 0x1F), (0x7F, 0x7F)]),
    ("digit", [(0x30, 0x39)]),
    ("graph", [(0x21, 0x7E)]),
    ("lower", [(0x61, 0x7A)]),
    ("print", [(0x20, 0x7E)]),
    ("punct", [(0x21, 0x2F), (0x3A, 0x40), (0x5B, 0x60), (0x7B, 0x7E)]),
    ("space", [(0x09, 0x0D), (0x20, 0x20)]),
    ("upper", [(0x41, 0x5A)]),
    ("word", [(0x30, 0x39), (0x41, 0x5A), (0x5F, 0x5F), (0x61, 0x7A)]),
    ("xdigit", [(0x30, 0x39), (0x41, 0x46), (0x61, 0x66)])]

/-- What was read between two brackets so far. -/
structure ClassLevel where
  /-- The opening bracket with what belongs to it. -/
  opening : Span
  negated : Bool
  /-- An operation that waits for its right side. -/
  pending : Option (SetOperation × Placed ClassTree) := none
  /-- Where the present side of an operation starts. -/
  start : Nat
  /-- The parts of the present side, the last one first. -/
  parts : List (Placed ClassTree) := []

namespace ClassLevel

def push (level : ClassLevel) (part : Placed ClassTree) : ClassLevel :=
  { level with parts := part :: level.parts }

/-- The parts of the present side as one. -/
def side (level : ClassLevel) : Placed ClassTree :=
  match level.parts with
  | [] => (.empty, ⟨level.start, level.start⟩)
  | [part] => part
  | last :: parts =>
      let start :=
        (parts.getLast?.map fun part => part.2.start).getD last.2.start
      let span : Span := ⟨start, last.2.stop⟩
      (.level (parts.foldl (fun tree part => .union part.1 tree) last.1) span,
        span)

/-- All that was read on a level. -/
def content (level : ClassLevel) : Placed ClassTree :=
  match level.pending with
  | none => level.side
  | some (kind, left) =>
      let right := level.side
      let span : Span := ⟨left.2.start, right.2.stop⟩
      (.level (.operation kind left.1 right.1 left.2 right.2) span, span)

/-- Go on with the right side of an operation. -/
def operate (level : ClassLevel) (kind : SetOperation) (start : Nat) :
    ClassLevel :=
  { level with
    pending := some (kind, level.content)
    start := start
    parts := [] }

/-- The class whose closing bracket ends at a place. -/
def close (level : ClassLevel) (stop : Nat) : Placed ClassTree :=
  let span : Span := ⟨level.opening.start, stop⟩
  (.bracket level.negated level.content.1 span, span)

end ClassLevel

/-- Read an opening bracket with what has a meaning only there: a caret, dashes,
and a closing bracket that stands for itself. -/
def openClass (cursor : Cursor) : Except Flaw (ClassLevel × Cursor) :=
  let start := cursor.offset
  let cursor := cursor.step
  let negated := cursor.peek = some '^'
  let cursor := if negated then cursor.step else cursor
  let literal (c : Char) : Placed ClassTree :=
    (.atom (.literal c false) ⟨start, start⟩, ⟨start, start⟩)
  let level (cursor : Cursor) (parts : List (Placed ClassTree)) : ClassLevel :=
    { opening := cursor.since start
      negated := negated
      start := cursor.offset
      parts := parts }
  if cursor.atEnd then fail .classUnclosed (cursor.since start)
  else
    let (dashes, cursor) := cursor.readAll fun c => c == '-'
    if cursor.atEnd then fail .classUnclosed ⟨start, start⟩
    else if dashes.isEmpty && cursor.peek == some ']' then
      let cursor := cursor.step
      if cursor.atEnd then fail .classUnclosed (cursor.since start)
      else .ok (level cursor [literal ']'], cursor)
    else
      .ok (level cursor (dashes.map literal), cursor)

/-- Read the name of a class between colons; the cursor stands before a bracket.
-/
def readNamed? (cursor : Cursor) : Option (Placed ClassTree × Cursor) :=
  match cursor.rest with
  | '[' :: ':' :: rest =>
      let negated := rest.head? = some '^'
      let rest := if negated then rest.drop 1 else rest
      let name := rest.takeWhile fun c => c != ':'
      match rest.drop name.length with
      | ':' :: ']' :: _ => do
          let ranges ← namedClasses.lookup (String.ofList name)
          let start := cursor.offset
          let cursor := cursor.advance (name.length + if negated then 5 else 4)
          let span := cursor.since start
          return ((.named ranges negated span, span), cursor)
      | _ => none
  | _ => none

def readClassAtom (cursor : Cursor) : Except Flaw (Placed Atom × Cursor) :=
  match cursor.peek with
  | some '\\' => readEscape cursor
  | some c => .ok ((.literal c false, cursor.nextSpan), cursor.advance 1)
  | none => fail .escapeUnexpectedEnd cursor.here

/-- An atom as a part of a class: conditions on places can not be one. -/
def classPart (atom : Placed Atom) : Except Flaw (Placed ClassTree) :=
  match atom.1 with
  | .anchor _ => fail .classEscapeInvalid atom.2
  | _ => .ok (.atom atom.1 atom.2, atom.2)

/-- An atom as the end of a range: it has to be a character. -/
def rangeEnd (atom : Placed Atom) : Except Flaw (Char × Bool) :=
  match atom.1 with
  | .literal c asByte => .ok (c, asByte)
  | _ => fail .classRangeLiteral atom.2

/-- Read a character, an escape or a range.  A dash before a closing bracket or
another dash makes no range. -/
def readClassPart (level : ClassLevel) (cursor : Cursor) :
    Except Flaw (Placed ClassTree × Cursor) := do
  let (first, cursor) ← readClassAtom cursor
  let cursor := cursor.skip
  let next := cursor.step.peek
  if cursor.atEnd then
    fail .classUnclosed level.opening
  else if cursor.peek ≠ some '-' ∨ next = some ']' ∨ next = some '-' then
    return (← classPart first, cursor)
  else
    let cursor := cursor.step
    if cursor.atEnd then
      fail .classUnclosed level.opening
    else
      let (last, cursor) ← readClassAtom cursor
      let span : Span := ⟨first.2.start, last.2.stop⟩
      let (low, lowAsByte) ← rangeEnd first
      let (high, highAsByte) ← rangeEnd last
      if high < low then
        fail .classRangeInvalid span
      else
        let range : ClassTree :=
          .range low high lowAsByte highAsByte first.2 last.2
        return ((range, span), cursor)

/-- Read the rest of a class, at most `fuel` parts of it. -/
def readLevels :
    Nat → ClassLevel → List ClassLevel → Cursor →
      Except Flaw (ClassTree × Cursor)
  | 0, level, _, _ => fail .classUnclosed level.opening
  | fuel + 1, level, outer, cursor =>
      let cursor := cursor.skip
      match cursor.rest with
      | [] => fail .classUnclosed level.opening
      | '[' :: _ =>
          match readNamed? cursor with
          | some (part, cursor) =>
              readLevels fuel (level.push part) outer cursor
          | none => do
              let (inner, cursor) ← openClass cursor
              readLevels fuel inner (level :: outer) cursor
      | ']' :: _ =>
          let cursor := cursor.advance 1
          let part := level.close cursor.offset
          match outer with
          | [] => .ok (part.1, cursor)
          | parent :: outer => readLevels fuel (parent.push part) outer cursor
      | '&' :: '&' :: _ =>
          let cursor := cursor.advance 2
          readLevels fuel (level.operate .intersection cursor.offset) outer
            cursor
      | '-' :: '-' :: _ =>
          let cursor := cursor.advance 2
          readLevels fuel (level.operate .difference cursor.offset) outer cursor
      | '~' :: '~' :: _ =>
          let cursor := cursor.advance 2
          readLevels fuel (level.operate .symmetricDifference cursor.offset)
            outer cursor
      | _ => do
          let (part, cursor) ← readClassPart level cursor
          readLevels fuel (level.push part) outer cursor

/-- Read a bracketed class; the cursor stands before the opening bracket. -/
def readBracket (cursor : Cursor) : Except Flaw (ClassTree × Cursor) := do
  let (level, cursor) ← openClass cursor
  readLevels (cursor.rest.length + 1) level [] cursor

end Pattern
end ByteMachine
