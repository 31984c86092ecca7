import ByteMachine.Pattern.Flaw

/-!
# Written patterns

A pattern as it is written, before the options in it take effect.  The parts
keep their places where a later flaw may have to point at them.
-/

namespace ByteMachine
namespace Pattern

/-- An option that changes the meaning of what follows it. -/
inductive Flag where
  /-- Letters match in either case. -/
  | caseless
  /-- Anchors for the text match at lines. -/
  | multiline
  /-- The dot matches line feeds too. -/
  | dotAll
  /-- Short repetitions come first, which makes no difference to what occurs. -/
  | swapGreed
  /-- Classes, words and cases go beyond ASCII. -/
  | unicode
  /-- Lines may end in carriage returns. -/
  | anyEnding
  /-- Blanks and comments in the written pattern do not count. -/
  | verbose
  deriving DecidableEq, Repr

def Flag.ofLetter? (c : Char) : Option Flag :=
  [('i', caseless), ('m', multiline), ('s', dotAll), ('U', swapGreed),
    ('u', unicode), ('R', anyEnding), ('x', verbose)].lookup c

/-- Options with the state they are given. -/
abbrev FlagChange := List (Flag × Bool)

/-- The classes that have a letter of their own. -/
inductive LetterClass where
  | blank
  | digit
  | word
  deriving DecidableEq, Repr

/-- The conditions on places, as they are written. -/
inductive AnchorMark where
  | caret
  | dollar
  | textStart
  | textEnd
  | wordBoundary
  | noWordBoundary
  | wordStart
  | wordEnd
  | noWordBefore
  | noWordAfter
  deriving DecidableEq, Repr

/-- The smallest parts of a written pattern. -/
inductive Atom where
  /-- A character; `asByte` says that it was given by two digits of radix
  sixteen. -/
  | literal (c : Char) (asByte : Bool)
  | dot
  | anchor (mark : AnchorMark)
  | letterClass (kind : LetterClass) (negated : Bool)
  /-- The characters with a property, or those without it, by the name of the
  property. -/
  | property (name : String)
  deriving DecidableEq, Repr

inductive SetOperation where
  | intersection
  | difference
  | symmetricDifference
  deriving DecidableEq, Repr

inductive ClassTree where
  | empty
  | atom (atom : Atom) (span : Span)
  | range (first last : Char) (firstAsByte lastAsByte : Bool)
      (firstSpan lastSpan : Span)
  /-- A class of ASCII characters that is given by its name. -/
  | named (ranges : List (Nat × Nat)) (negated : Bool) (span : Span)
  | bracket (negated : Bool) (content : ClassTree) (span : Span)
  | union (left right : ClassTree)
  | operation (kind : SetOperation) (left right : ClassTree)
      (leftSpan rightSpan : Span)
  /-- A part that counts as one level of nesting. -/
  | level (content : ClassTree) (span : Span)
  deriving Repr

inductive Tree where
  | empty
  | atom (atom : Atom) (span : Span)
  | bracket (content : ClassTree)
  | flags (change : FlagChange)
  | group (change : FlagChange) (body : Tree)
  | times (body : Tree) (least : Nat) (most : Option Nat)
  | seq (first second : Tree)
  | alt (left right : Tree)
  /-- A part that counts as one level of nesting. -/
  | level (content : Tree) (span : Span)
  deriving Repr

/-- The first part of a class that is nested deeper than allowed. -/
def ClassTree.tooDeep? (allowed : Nat) : ClassTree → Option Span
  | empty => none
  | atom _ _ => none
  | range .. => none
  | named .. => none
  | union left right => (left.tooDeep? allowed).or (right.tooDeep? allowed)
  | operation _ left right _ _ =>
      (left.tooDeep? allowed).or (right.tooDeep? allowed)
  | bracket _ content span =>
      match allowed with
      | 0 => some span
      | allowed + 1 => content.tooDeep? allowed
  | level content span =>
      match allowed with
      | 0 => some span
      | allowed + 1 => content.tooDeep? allowed

/-- The first part of a pattern that is nested deeper than allowed. -/
def Tree.tooDeep? (allowed : Nat) : Tree → Option Span
  | empty => none
  | atom _ _ => none
  | flags _ => none
  | bracket content => content.tooDeep? allowed
  | group _ body => body.tooDeep? allowed
  | times body _ _ => body.tooDeep? allowed
  | seq first second => (first.tooDeep? allowed).or (second.tooDeep? allowed)
  | alt left right => (left.tooDeep? allowed).or (right.tooDeep? allowed)
  | level content span =>
      match allowed with
      | 0 => some span
      | allowed + 1 => content.tooDeep? allowed

end Pattern
end ByteMachine
