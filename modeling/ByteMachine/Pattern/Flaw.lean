import ByteMachine.Text.Blank
import ByteMachine.Text.Numeral

/-!
# Flaws in written patterns

Why a written pattern is refused, and the text that says so: the pattern with
marks under the place in question, and the wording of the reason.
-/

namespace ByteMachine
namespace Pattern

/-- Part of a written pattern, by the numbers of characters before its start and
its end. -/
structure Span where
  start : Nat
  stop : Nat
  deriving DecidableEq, Repr

/-- Why a written pattern is refused. -/
inductive Reason where
  | classEscapeInvalid
  | classRangeInvalid
  | classRangeLiteral
  | classUnclosed
  | decimalInvalid
  | escapeHexEmpty
  | escapeHexInvalid
  | escapeHexInvalidDigit
  | escapeUnexpectedEnd
  | escapeUnrecognized
  | flagDanglingNegation
  | flagDuplicate
  | flagRepeatedNegation
  | flagUnexpectedEnd
  | flagUnrecognized
  | groupNameDuplicate
  | groupNameEmpty
  | groupNameInvalid
  | groupNameUnexpectedEnd
  | groupUnclosed
  | groupUnopened
  | nestLimitExceeded
  | repetitionCountInvalid
  | repetitionCountEmpty
  | repetitionCountUnclosed
  | repetitionMissing
  | wordBoundaryUnclosed
  | wordBoundaryUnrecognized
  | wordBoundaryUnexpectedEnd
  | propertyInvalid
  | backreference
  | lookAround
  | unicodeNotAllowed
  | invalidText
  | propertyNotFound
  | propertyValueNotFound
  | letterClassUnavailable
  | caseUnavailable
  deriving DecidableEq, Repr

/-- How deep parentheses, brackets and the like may be nested. -/
def nestLimit : Nat := 250

def Reason.message : Reason → String
  | classEscapeInvalid => "invalid escape sequence found in character class"
  | classRangeInvalid =>
      "invalid character class range, the start must be <= the end"
  | classRangeLiteral => "invalid range boundary, must be a literal"
  | classUnclosed => "unclosed character class"
  | decimalInvalid => "decimal literal invalid"
  | escapeHexEmpty => "hexadecimal literal empty"
  | escapeHexInvalid => "hexadecimal literal is not a Unicode scalar value"
  | escapeHexInvalidDigit => "invalid hexadecimal digit"
  | escapeUnexpectedEnd =>
      "incomplete escape sequence, reached end of pattern prematurely"
  | escapeUnrecognized => "unrecognized escape sequence"
  | flagDanglingNegation => "dangling flag negation operator"
  | flagDuplicate => "duplicate flag"
  | flagRepeatedNegation => "flag negation operator repeated"
  | flagUnexpectedEnd => "expected flag but got end of regex"
  | flagUnrecognized => "unrecognized flag"
  | groupNameDuplicate => "duplicate capture group name"
  | groupNameEmpty => "empty capture group name"
  | groupNameInvalid => "invalid capture group character"
  | groupNameUnexpectedEnd => "unclosed capture group name"
  | groupUnclosed => "unclosed group"
  | groupUnopened => "unopened group"
  | nestLimitExceeded =>
      "exceed the maximum number of nested parentheses/brackets (" ++
        Numeral.decimal nestLimit ++ ")"
  | repetitionCountInvalid =>
      "invalid repetition count range, the start must be <= the end"
  | repetitionCountEmpty => "repetition quantifier expects a valid decimal"
  | repetitionCountUnclosed => "unclosed counted repetition"
  | repetitionMissing => "repetition operator missing expression"
  | wordBoundaryUnclosed =>
      "special word boundary assertion is either unclosed or contains an " ++
        "invalid character"
  | wordBoundaryUnrecognized =>
      "unrecognized special word boundary assertion, valid choices are: " ++
        "start, end, start-half or end-half"
  | wordBoundaryUnexpectedEnd =>
      "found either the beginning of a special word boundary or a bounded " ++
        "repetition on a \\b with an opening brace, but no closing brace"
  | propertyInvalid => "invalid Unicode character class"
  | backreference => "backreferences are not supported"
  | lookAround =>
      "look-around, including look-ahead and look-behind, is not supported"
  | unicodeNotAllowed => "Unicode not allowed here"
  | invalidText => "pattern can match invalid UTF-8"
  | propertyNotFound => "Unicode property not found"
  | propertyValueNotFound => "Unicode property value not found"
  | letterClassUnavailable =>
      "Unicode-aware Perl class not found (make sure the unicode-perl " ++
        "feature is enabled)"
  | caseUnavailable =>
      "Unicode-aware case insensitivity matching is not available (make " ++
        "sure the unicode-case feature is enabled)"

/-- A flaw of a written pattern, and where it is. -/
structure Flaw where
  reason : Reason
  span : Span
  /-- The part of the pattern with which the flawed part is in conflict. -/
  earlier : Option Span := none
  deriving DecidableEq, Repr

/-- A place in a text of several lines; both numbers start at one. -/
structure Position where
  line : Nat
  column : Nat
  deriving DecidableEq, Repr

/-- The place behind so many characters of a text. -/
def Position.after (cs : List Char) (count : Nat) : Position :=
  let before := cs.take count
  ⟨before.count '\n' + 1,
    (before.reverse.takeWhile fun c => c != '\n').length + 1⟩

namespace Flaw

/-- The parts of the pattern to be marked, in order. -/
def marked (flaw : Flaw) : List Span :=
  match flaw.earlier with
  | none => [flaw.span]
  | some earlier =>
      if earlier.start ≤ flaw.span.start then
        [earlier, flaw.span]
      else
        [flaw.span, earlier]

def inOneLine (cs : List Char) (span : Span) : Bool :=
  (Position.after cs span.start).line == (Position.after cs span.stop).line

/-- The marks under one line for parts given by their first columns and lengths.
-/
def marks : Nat → List (Nat × Nat) → List Char
  | _, [] => []
  | column, (first, length) :: rest =>
      let width := max 1 length
      List.replicate (first - column) ' ' ++ List.replicate width '^' ++
        marks (max column first + width) rest

/-- The marks under a line of the pattern, where there are any. -/
def marksOfLine (cs : List Char) (spans : List Span) (line : Nat) :
    Option (List Char) :=
  let here :=
    spans.filter fun span => (Position.after cs span.start).line = line
  if here.isEmpty then none
  else
    some (marks 1 (here.map fun span =>
      ((Position.after cs span.start).column, span.stop - span.start)))

/-- The lines of a written pattern, each with the marks under it and `margin`
before both. -/
def markedLines (cs : List Char) (spans : List Span)
    (margin : Nat → List Char) : String :=
  let lines := Text.lines cs
  let numbered := lines.zip (List.range' 1 lines.length)
  String.join (numbered.map fun (line, number) =>
    let blank := List.replicate (margin number).length ' '
    String.ofList (margin number ++ line ++ ['\n'] ++
      match marksOfLine cs spans number with
      | none => []
      | some marks => blank ++ marks ++ ['\n']))

/-- The number of lines of a written pattern; a line feed at its end starts
another one. -/
def lineCount (cs : List Char) : Nat :=
  cs.count '\n' + 1

/-- The line that stands before and behind a pattern of several lines. -/
def divider : String :=
  String.ofList (List.replicate 79 '~') ++ "\n"

/-- The note on a part of the pattern that reaches over several lines. -/
def lineNote (cs : List Char) (span : Span) : String :=
  let start := Position.after cs span.start
  let stop := Position.after cs span.stop
  "on line " ++ Numeral.decimal start.line ++ " (column " ++
    Numeral.decimal start.column ++ ") through line " ++
    Numeral.decimal stop.line ++ " (column " ++
    Numeral.decimal (stop.column - 1) ++ ")\n"

/-- The text that tells of a flaw in a written pattern.  A pattern of several
lines gets line numbers, and parts that reach over several lines are noted
instead of marked. -/
def message (flaw : Flaw) (cs : List Char) : String :=
  let short := flaw.marked.filter (inOneLine cs)
  let long := flaw.marked.filter fun span => !inOneLine cs span
  if cs.contains '\n' then
    let width := (Numeral.decimal (lineCount cs)).length
    let margin := fun number =>
      (Numeral.decimal number).toList.leftpad width ' ' ++ [':', ' ']
    "regex parse error:\n" ++ divider ++ markedLines cs short margin ++
      divider ++ String.join (long.map (lineNote cs)) ++ "error: " ++
      flaw.reason.message
  else
    "regex parse error:\n" ++
      markedLines cs short (fun _ => [' ', ' ', ' ', ' ']) ++
      "error: " ++ flaw.reason.message

end Flaw
end Pattern
end ByteMachine
