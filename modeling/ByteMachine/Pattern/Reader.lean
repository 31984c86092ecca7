import ByteMachine.Pattern.Bracket

/-!
# Reading patterns

A written pattern is read from left to right.  What stands between two
parentheses is collected as branches, the branches around it are kept in a list
of frames, the nearest first, and a flaw ends the reading where it shows.
-/

namespace ByteMachine
namespace Pattern

/-- What was read between two parentheses so far. -/
structure Branches where
  /-- Where the first branch starts. -/
  start : Nat
  /-- The finished branches, the last one first. -/
  finished : List Tree := []
  /-- Where the present branch starts. -/
  branchStart : Nat := start
  /-- The parts of the present branch, the last one first. -/
  parts : List (Placed Tree) := []

namespace Branches

def push (branches : Branches) (part : Placed Tree) : Branches :=
  { branches with parts := part :: branches.parts }

/-- The present branch as one tree; several parts are one level of nesting. -/
def branch (branches : Branches) (stop : Nat) : Tree :=
  match branches.parts with
  | [] => .empty
  | [part] => part.1
  | last :: parts =>
      .level (parts.foldl (fun tree part => .seq part.1 tree) last.1)
        ⟨branches.branchStart, stop⟩

/-- Go on with the next branch, which starts behind the bar at `bar`. -/
def next (branches : Branches) (bar : Nat) : Branches :=
  { branches with
    finished := branches.branch bar :: branches.finished
    branchStart := bar + 1
    parts := [] }

def tree (branches : Branches) (stop : Nat) : Tree :=
  let last := branches.branch stop
  match branches.finished with
  | [] => last
  | finished =>
      .level (finished.foldl (fun tree branch => .alt branch tree) last)
        ⟨branches.start, stop⟩

end Branches

/-- A parenthesis that is not closed yet. -/
structure Frame where
  /-- Where the parenthesis stands. -/
  opening : Nat
  /-- The options that are set inside. -/
  change : FlagChange
  /-- The branches outside. -/
  outer : Branches
  /-- Whether blanks count outside. -/
  verbose : Bool

/-- How far the reading of a pattern has come. -/
structure Reader where
  cursor : Cursor
  branches : Branches
  frames : List Frame := []
  /-- The names of groups, with their places. -/
  names : List (List Char × Span) := []

/-- A letter in a list of options, or the dash that turns off those behind it.
-/
structure FlagItem where
  flag : Option Flag
  offset : Nat

namespace FlagItem

/-- What a list of options, the last one first, comes to. -/
def change : List FlagItem → FlagChange
  | [] => []
  | item :: before =>
      match item.flag with
      | none => change before
      | some flag =>
          (flag, before.all fun item => item.flag.isSome) :: change before

/-- Read a list of options up to a colon or a closing parenthesis.  No letter
may come twice, and a dash must stand before a letter. -/
def readList (items : List FlagItem) :
    List Char → Nat → Except Flaw (List FlagItem × Nat)
  | [], offset => fail .flagUnexpectedEnd ⟨offset, offset⟩
  | c :: rest, offset =>
      let here : Span := ⟨offset, offset + 1⟩
      let twice (flag : Option Flag) : Option Span :=
        (items.find? fun item => item.flag = flag).map fun item =>
          ⟨item.offset, item.offset + 1⟩
      if c = ':' ∨ c = ')' then
        match items with
        | ⟨none, dash⟩ :: _ => fail .flagDanglingNegation ⟨dash, dash + 1⟩
        | _ => .ok (items, offset)
      else if c = '-' then
        match twice none with
        | some earlier => .error ⟨.flagRepeatedNegation, here, some earlier⟩
        | none => readList (⟨none, offset⟩ :: items) rest (offset + 1)
      else
        match Flag.ofLetter? c with
        | none => fail .flagUnrecognized here
        | some flag =>
            match twice (some flag) with
            | some earlier => .error ⟨.flagDuplicate, here, some earlier⟩
            | none => readList (⟨some flag, offset⟩ :: items) rest (offset + 1)

end FlagItem

/-- Whether a character can stand in the name of a group; beyond ASCII every
character can. -/
def isNameChar (first : Bool) (c : Char) : Bool :=
  c == '_' || c.isAlpha || 0x80 ≤ c.toNat ||
    !first && (c.isDigit || c == '.' || c == '[' || c == ']')

def nameAt : List Char → List Char
  | [] => []
  | c :: rest =>
      if isNameChar true c then
        c :: rest.takeWhile (isNameChar false)
      else
        []

namespace Reader

/-- Put a part behind those read so far. -/
def push (reader : Reader) (part : Placed Tree) (cursor : Cursor) : Reader :=
  { reader with branches := reader.branches.push part, cursor := cursor }

/-- Go on inside a parenthesis that stands at `opening`. -/
def enter (reader : Reader) (opening : Nat) (change : FlagChange)
    (cursor : Cursor) : Reader :=
  let verbose := reader.cursor.verbose
  { reader with
    cursor := { cursor with verbose := (change.lookup .verbose).getD verbose }
    branches := { start := cursor.offset }
    frames := ⟨opening, change, reader.branches, verbose⟩ :: reader.frames }

/-- Read the name of a group; the cursor stands before it. -/
def openNamed (reader : Reader) (opening : Nat) (cursor : Cursor) :
    Except Flaw Reader :=
  let name := nameAt cursor.rest
  let closing := cursor.advance name.length
  let span := closing.since cursor.offset
  match closing.peek with
  | none => fail .groupNameUnexpectedEnd closing.here
  | some '>' =>
      if name.isEmpty then fail .groupNameEmpty span
      else
        match reader.names.lookup name with
        | some earlier => .error ⟨.groupNameDuplicate, span, some earlier⟩
        | none =>
            let reader := reader.enter opening [] (closing.advance 1)
            .ok { reader with names := (name, span) :: reader.names }
  | some _ => fail .groupNameInvalid closing.nextSpan

/-- Read options; the cursor stands behind the question mark, and `inner` is the
place of that mark.  Before a parenthesis the options hold for the rest of the
group, behind a colon for a group of their own. -/
def openFlags (reader : Reader) (opening inner : Nat) (cursor : Cursor) :
    Except Flaw Reader := do
  if cursor.atEnd then
    fail .groupUnclosed ⟨opening, opening + 1⟩
  else
    let (items, offset) ← FlagItem.readList [] cursor.rest cursor.offset
    let closing := cursor.advance (offset - cursor.offset)
    let after := closing.advance 1
    let change := FlagItem.change items
    if closing.peek = some ')' then
      if items.isEmpty then
        fail .repetitionMissing ⟨inner, inner⟩
      else
        let verbose := (change.lookup .verbose).getD after.verbose
        let cursor := { after with verbose := verbose }
        return reader.push (.flags change, after.since opening) cursor
    else
      return reader.enter opening change after

/-- The marks of the conditions on what stands before or behind, which are not
supported. -/
def lookAroundMarks : List (List Char) :=
  ["?=".toList, "?!".toList, "?<=".toList, "?<!".toList]

/-- Read an opening parenthesis with what belongs to it. -/
def openGroup (reader : Reader) : Except Flaw Reader :=
  let opening := reader.cursor.offset
  let cursor := reader.cursor.step
  match lookAroundMarks.find? fun mark => mark.isPrefixOf cursor.rest with
  | some mark => fail .lookAround ⟨opening, cursor.offset + mark.length⟩
  | none =>
      match cursor.rest with
      | '?' :: 'P' :: '<' :: _ => reader.openNamed opening (cursor.advance 3)
      | '?' :: '<' :: _ => reader.openNamed opening (cursor.advance 2)
      | '?' :: _ => reader.openFlags opening cursor.offset (cursor.advance 1)
      | _ => .ok (reader.enter opening [] cursor)

def closeGroup (reader : Reader) : Except Flaw Reader :=
  match reader.frames with
  | [] => fail .groupUnopened reader.cursor.nextSpan
  | frame :: frames =>
      let body := reader.branches.tree reader.cursor.offset
      let cursor := { reader.cursor.advance 1 with verbose := frame.verbose }
      let span := cursor.since frame.opening
      .ok { reader with
        cursor := cursor
        branches :=
          frame.outer.push (.level (.group frame.change body) span, span)
        frames := frames }

/-- The part that a repetition repeats: the last one, which must not be a change
of options. -/
def repeated (reader : Reader) :
    Except Flaw (Placed Tree × List (Placed Tree)) :=
  match reader.branches.parts with
  | [] => fail .repetitionMissing reader.cursor.here
  | (.flags _, _) :: _ => fail .repetitionMissing reader.cursor.here
  | part :: parts => .ok (part, parts)

/-- Put a repetition in the place of the part that it repeats. -/
def putTimes (reader : Reader) (part : Placed Tree)
    (parts : List (Placed Tree)) (least : Nat) (most : Option Nat)
    (cursor : Cursor) : Reader :=
  let span : Span := ⟨part.2.start, cursor.offset⟩
  { reader with
    cursor := cursor
    branches := { reader.branches with
      parts := (.level (.times part.1 least most) span, span) :: parts } }

/-- Pass over the question mark that makes a repetition a short one. -/
def passLazy (cursor : Cursor) : Cursor :=
  if cursor.peek = some '?' then cursor.advance 1 else cursor

/-- Read a repetition that is given by one mark. -/
def readTimes (reader : Reader) (least : Nat) (most : Option Nat) :
    Except Flaw Reader := do
  let (part, parts) ← reader.repeated
  let cursor := passLazy (reader.cursor.advance 1)
  return reader.putTimes part parts least most cursor

/-- Read a decimal number, with blanks before and behind it.  The flaw of an
absent or too large number is part of the answer, since another flaw may come
first. -/
def readDecimal (cursor : Cursor) : Except Flaw Nat × Cursor :=
  let start := cursor.skipBlanks
  let (digits, stop) := start.readAll Char.isDigit
  let span := stop.since start.offset
  let cursor :=
    if stop.peek.any Text.isBlank then stop.skipBlanks.skip else stop
  match Numeral.ofDigits? 10 digits with
  | none => (fail .repetitionCountEmpty span, cursor)
  | some n =>
      (if n < UInt32.size then .ok n else fail .decimalInvalid span, cursor)

/-- Read the numbers of a repetition; the cursor stands behind the opening brace
at `start`, and afterwards before what should be the closing one. -/
def readCounts (start : Nat) (cursor : Cursor) :
    Except Flaw ((Nat × Option Nat) × Cursor) := do
  let (least, cursor) := readDecimal cursor
  if cursor.atEnd then
    fail .repetitionCountUnclosed (cursor.since start)
  else if cursor.peek = some ',' then
    let cursor := cursor.step
    if cursor.atEnd then
      fail .repetitionCountUnclosed (cursor.since start)
    else if cursor.peek = some '\x7d' then
      return ((← least, none), cursor)
    else
      let least ← least
      let (most, cursor) := readDecimal cursor
      return ((least, some (← most)), cursor)
  else
    let least ← least
    return ((least, some least), cursor)

/-- Read a repetition with numbers between braces. -/
def readCounted (reader : Reader) : Except Flaw Reader := do
  let start := reader.cursor.offset
  let (part, parts) ← reader.repeated
  let cursor := reader.cursor.step
  if cursor.atEnd then
    fail .repetitionCountUnclosed (cursor.since start)
  else
    let ((least, most), cursor) ← readCounts start cursor
    if cursor.peek ≠ some '\x7d' then
      fail .repetitionCountUnclosed (cursor.since start)
    else
      let cursor := passLazy cursor.step
      if most.any (· < least) then
        fail .repetitionCountInvalid (cursor.since start)
      else
        return reader.putTimes part parts least most cursor

/-- Read a part that is neither a parenthesis nor a repetition; the cursor
stands before the character `c`. -/
def readPart (reader : Reader) (c : Char) : Except Flaw Reader := do
  let cursor := reader.cursor
  let one (atom : Atom) : Reader :=
    reader.push (.atom atom cursor.nextSpan, cursor.nextSpan) (cursor.advance 1)
  if c = '[' then
    let (content, next) ← readBracket cursor
    return reader.push (.bracket content, next.since cursor.offset) next
  else if c = '\\' then
    let ((atom, span), next) ← readEscape cursor
    return reader.push (.atom atom span, span) next
  else if c = '.' then
    return one .dot
  else if c = '^' then
    return one (.anchor .caret)
  else if c = '$' then
    return one (.anchor .dollar)
  else
    return one (.literal c false)

/-- Read the next piece of a pattern, which starts with the character `c`. -/
def readPiece (reader : Reader) (c : Char) : Except Flaw Reader :=
  if c = '(' then reader.openGroup
  else if c = ')' then reader.closeGroup
  else if c = '|' then
    .ok { reader with
      cursor := reader.cursor.advance 1
      branches := reader.branches.next reader.cursor.offset }
  else if c = '?' then reader.readTimes 0 (some 1)
  else if c = '*' then reader.readTimes 0 none
  else if c = '+' then reader.readTimes 1 none
  else if c = '\x7b' then reader.readCounted
  else reader.readPart c

/-- The pattern that was read, once nothing is left: all parentheses must be
closed. -/
def finish (reader : Reader) : Except Flaw Tree :=
  match reader.frames with
  | frame :: _ => fail .groupUnclosed ⟨frame.opening, frame.opening + 1⟩
  | [] => .ok (reader.branches.tree reader.cursor.offset)

/-- Read the rest of a pattern, at most `fuel` pieces of it. -/
def readPieces : Nat → Reader → Except Flaw Tree
  | 0, reader => reader.finish
  | fuel + 1, reader =>
      let cursor := reader.cursor.skip
      match cursor.peek with
      | none => finish { reader with cursor := cursor }
      | some c => do
          let reader ← readPiece { reader with cursor := cursor } c
          readPieces fuel reader

end Reader

/-- Read a written pattern. -/
def Tree.ofChars? (cs : List Char) : Except Flaw Tree := do
  let reader : Reader :=
    { cursor := { rest := cs }, branches := { start := 0 } }
  let tree ← reader.readPieces (cs.length + 1)
  match tree.tooDeep? nestLimit with
  | some span => fail .nestLimitExceeded span
  | none => return tree

end Pattern
end ByteMachine
