import ByteMachine.Pattern.CharSet

/-!
# Patterns

A pattern describes texts: which characters follow each other, with choices,
repetitions, and conditions on the place in the text.  Whether a pattern occurs
in a text is decided by reading the text once.  For every character the patterns
that are still open are replaced by what is left of them behind that character,
so that all ways to match are followed side by side.
-/

namespace ByteMachine

/-- A condition on a place in a text.  Words are made of ASCII letters, digits
and underscores. -/
inductive Anchor where
  | textStart
  | textEnd
  /-- The start of a line; `anyEnding` says that lines may also end in carriage
  returns. -/
  | lineStart (anyEnding : Bool)
  /-- The end of a line. -/
  | lineEnd (anyEnding : Bool)
  /-- A word starts or ends here. -/
  | wordBoundary
  /-- No word starts or ends here. -/
  | noWordBoundary
  /-- A word starts here. -/
  | wordStart
  /-- A word ends here. -/
  | wordEnd
  /-- There is no word before. -/
  | noWordBefore
  /-- There is no word behind. -/
  | noWordAfter
  deriving DecidableEq, Repr

namespace Anchor

def isWord (c : Option Char) : Bool :=
  c.any CharSet.word.contains

/-- Whether a condition holds between two characters; at the ends of the text
there is none. -/
def holds (anchor : Anchor) (before after : Option Char) : Bool :=
  match anchor with
  | textStart => before.isNone
  | textEnd => after.isNone
  | lineStart false => before.isNone || before == some '\n'
  | lineEnd false => after.isNone || after == some '\n'
  | lineStart true =>
      before.isNone || before == some '\n' ||
        before == some '\r' && after != some '\n'
  | lineEnd true =>
      after.isNone || after == some '\r' ||
        after == some '\n' && before != some '\r'
  | wordBoundary => isWord before != isWord after
  | noWordBoundary => isWord before == isWord after
  | wordStart => !isWord before && isWord after
  | wordEnd => isWord before && !isWord after
  | noWordBefore => !isWord before
  | noWordAfter => !isWord after

end Anchor

inductive Pattern where
  /-- The empty text. -/
  | empty
  /-- One character of a set. -/
  | one (set : CharSet)
  /-- The empty text in certain places. -/
  | place (anchor : Anchor)
  /-- One pattern behind the other. -/
  | seq (first second : Pattern)
  /-- Either of two patterns. -/
  | alt (left right : Pattern)
  /-- A pattern at least and at most so many times; without the second number,
  any more. -/
  | times (body : Pattern) (least : Nat) (most : Option Nat)
  deriving DecidableEq, Repr

namespace Pattern

/-- Whether a pattern matches the empty text between two characters. -/
def matchesEmpty (before after : Option Char) : Pattern → Bool
  | empty => true
  | one _ => false
  | place anchor => anchor.holds before after
  | seq first second =>
      first.matchesEmpty before after && second.matchesEmpty before after
  | alt left right =>
      left.matchesEmpty before after || right.matchesEmpty before after
  | times body least _ => least == 0 || body.matchesEmpty before after

/-- One pattern behind another one, where nothing may be left of the first. -/
def andThen (first second : Pattern) : Pattern :=
  if first = empty then second else seq first second

/-- What is left of a pattern behind the character `c` that follows `before`:
one of the patterns in the list has to match there.  A repetition whose body can
be empty in this place may count any number of its rounds as done. -/
def rests (before : Option Char) (c : Char) : Pattern → List Pattern
  | empty => []
  | one set => if set.contains c then [empty] else []
  | place _ => []
  | seq first second =>
      (first.rests before c).map (andThen · second) ++
        if first.matchesEmpty before (some c) then second.rests before c else []
  | alt left right => left.rests before c ++ right.rests before c
  | times body least most =>
      if most = some 0 then []
      else
        let least := if body.matchesEmpty before (some c) then 0 else least - 1
        (body.rests before c).map
          (andThen · (times body least (most.map (· - 1))))

/-- Whether one of the open patterns matches, or the pattern itself does from
some place on.  The text is what follows the character `before`. -/
def search (pattern : Pattern) (before : Option Char) (opened : List Pattern) :
    List Char → Bool
  | [] =>
      (pattern :: opened).any fun candidate =>
        candidate.matchesEmpty before none
  | c :: rest =>
      let candidates := pattern :: opened
      (candidates.any fun candidate =>
          candidate.matchesEmpty before (some c)) ||
        search pattern (some c)
          (candidates.flatMap (rests before c)).eraseDups rest

def occursIn (pattern : Pattern) (text : String) : Bool :=
  search pattern none [] text.toList

end Pattern
end ByteMachine
