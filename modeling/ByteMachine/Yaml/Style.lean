import ByteMachine.Yaml.Character
import ByteMachine.Yaml.Number

/-!
# The style of a text in YAML

A text is written as it is wherever a reader then gets the same text back.
Otherwise it gets single quotes, or double quotes where it holds characters that
only an escape can give, and a text of several lines is written as a block.
-/

namespace ByteMachine
namespace Yaml

inductive Style where
  /-- As it is. -/
  | plain
  /-- Between single quotes, with each quote in it doubled. -/
  | singleQuoted
  /-- Between double quotes, with escapes. -/
  | doubleQuoted
  /-- As a block of lines. -/
  | literal
  deriving DecidableEq, Repr

/-- The texts that a reader takes for the absence of a value. -/
def nullNames : List String :=
  ["", "~", "null", "Null", "NULL"]

/-- The texts that a reader takes for a truth value. -/
def booleanNames : List String :=
  ["true", "True", "TRUE", "false", "False", "FALSE"]

/-- Whether a plain text would be read as something else than a text. -/
def isAmbiguous (cs : List Char) : Bool :=
  nullNames.contains (String.ofList cs) ||
    booleanNames.contains (String.ofList cs) || isNumber cs

def needsEscape (cs : List Char) : Bool :=
  cs.any fun c => !isPrintable c

def isMultiline (cs : List Char) : Bool :=
  cs.any isBreak

/-- Whether a text starts or ends with a blank or a line end. -/
def isPadded (cs : List Char) : Bool :=
  cs.head?.any (fun c => c == ' ' || isBreak c) ||
    cs.getLast?.any fun c => c == ' ' || isBreak c

/-- Whether a line ends in a blank. -/
def hasBlankBeforeBreak (cs : List Char) : Bool :=
  (neighbours cs).any fun pair => pair.1 == ' ' && isBreak pair.2

/-- Whether a line after the first starts with a blank. -/
def hasBlankAfterBreak (cs : List Char) : Bool :=
  (neighbours cs).any fun pair => isBreak pair.1 && pair.2 == ' '

/-- The characters that have a meaning of their own at the start of a value. -/
def indicators : List Char :=
  "#,[]\x7b\x7d&*!|>'\"%@`".toList

/-- Whether the start of a text has a meaning of its own: the mark of a
document, an indicator, or a dash or question mark that stands alone. -/
def startsWithIndicator (cs : List Char) : Bool :=
  "---".toList.isPrefixOf cs || "...".toList.isPrefixOf cs ||
    match cs with
    | [] => false
    | [c] => indicators.contains c || c == '-' || c == '?'
    | c :: next :: _ =>
        indicators.contains c || (c == '-' || c == '?') && isSeparator next

/-- Whether a colon ends a key: it stands before a separator or at the end. -/
def hasKeyEnd (cs : List Char) : Bool :=
  cs.getLast? == some ':' ||
    (neighbours cs).any fun pair => pair.1 == ':' && isSeparator pair.2

/-- Whether a number sign starts a comment: it stands behind a separator. -/
def hasComment (cs : List Char) : Bool :=
  (neighbours cs).any fun pair => isSeparator pair.1 && pair.2 == '#'

def allowsPlain (cs : List Char) : Bool :=
  !(needsEscape cs || isMultiline cs || isPadded cs || startsWithIndicator cs ||
    hasKeyEnd cs || hasComment cs)

def allowsSingleQuotes (cs : List Char) : Bool :=
  !(needsEscape cs || hasBlankBeforeBreak cs || hasBlankAfterBreak cs)

def allowsBlock (cs : List Char) : Bool :=
  !(needsEscape cs || hasBlankBeforeBreak cs || cs.getLast? == some ' ')

/-- The style of a text.  A line feed asks for a block, and double quotes are
the last resort. -/
def Style.ofChars (cs : List Char) : Style :=
  if cs.contains '\n' then
    if allowsBlock cs then .literal else .doubleQuoted
  else if !isAmbiguous cs && allowsPlain cs then .plain
  else if allowsSingleQuotes cs then .singleQuoted
  else .doubleQuoted

end Yaml
end ByteMachine
