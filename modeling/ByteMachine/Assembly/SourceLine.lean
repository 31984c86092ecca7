import ByteMachine.Text.Blank

/-!
# Lines of source text

A line consists of any number of labels, each before a colon, then the words of
at most one statement, then a comment behind a semicolon.  Cutting a line into
these parts cannot fail: whether a label is well named and what the words mean
is decided later.
-/

namespace ByteMachine

/-- A line cut into its parts. -/
structure SourceLine where
  /-- The texts before the colons, freed of the blanks around them. -/
  labels : List String
  /-- The words of the statement. -/
  words : List String
  deriving DecidableEq, Repr

namespace SourceLine

/-- Words are separated by blanks and commas in any mixture. -/
def isSeparator (c : Char) : Bool :=
  c == ',' || Text.isBlank c

def wordsOf (cs : List Char) : List String :=
  ((cs.splitOnP isSeparator).filter fun word => !word.isEmpty).map String.ofList

/-- The part of a line before its comment. -/
def withoutComment (cs : List Char) : List Char :=
  cs.takeWhile fun c => c != ';'

/-- Cut a line: all parts before the last colon are labels, the part behind it
is the statement. -/
def ofText (cs : List Char) : SourceLine :=
  let parts := (withoutComment cs).splitOn ':'
  { labels := parts.dropLast.map fun part => String.ofList (Text.trim part)
    words := wordsOf (parts.getLastD []) }

end SourceLine

/-- A label is named by a letter or an underscore and further letters, digits or
underscores, all of them ASCII. -/
def isLabelName (name : String) : Bool :=
  match name.toList with
  | [] => false
  | first :: rest =>
      (first.isAlpha || first == '_') &&
        rest.all fun c => c.isAlphanum || c == '_'

end ByteMachine
