import ByteMachine.Yaml.Style

/-!
# Texts in YAML

The written form of a text: one function for each style, and the choice among
them.  The lines of a text are moved in by a number of blanks, which the caller
knows from the place of the text.
-/

namespace ByteMachine
namespace Yaml

/-- Put `width` blanks before every line that holds anything.  The text starts a
line when the character before it is a line end. -/
def indented (width : Nat) (before : Char) (cs : List Char) : List Char :=
  ((before :: cs).zip cs).flatMap fun pair =>
    if isBreak pair.1 && !isBreak pair.2 then
      List.replicate width ' ' ++ [pair.2]
    else
      [pair.2]

def endsInBreak (cs : List Char) : Bool :=
  cs.getLast?.any isBreak

/-- A text between single quotes, with every single quote in it doubled. -/
def singleQuoted (width : Nat) (cs : List Char) : List Char :=
  let doubled := cs.flatMap fun c => if c = '\'' then ['\'', '\''] else [c]
  let closing := if endsInBreak cs then List.replicate width ' ' else []
  ['\''] ++ indented width '\'' doubled ++ closing ++ ['\'']

/-- The letters of the short escapes. -/
def shortEscapes : List (Nat × Char) :=
  [(0x00, '0'), (0x07, 'a'), (0x08, 'b'), (0x09, 't'), (0x0A, 'n'),
    (0x0B, 'v'), (0x0C, 'f'), (0x0D, 'r'), (0x1B, 'e'), (0x22, '"'),
    (0x5C, '\\'), (0x85, 'N'), (0x2028, 'L'), (0x2029, 'P')]

/-- The escape of a character by its code point, with two, four or eight digits.
-/
def numericEscape (code : Nat) : List Char :=
  if code < 0x100 then 'x' :: (Numeral.hexCapital 2 code).toList
  else if code < 0x10000 then 'u' :: (Numeral.hexCapital 4 code).toList
  else 'U' :: (Numeral.hexCapital 8 code).toList

def escape (c : Char) : List Char :=
  match shortEscapes.lookup c.toNat with
  | some letter => ['\\', letter]
  | none => if isPrintable c then [c] else '\\' :: numericEscape c.toNat

def doubleQuoted (cs : List Char) : List Char :=
  ['"'] ++ cs.flatMap escape ++ ['"']

/-- The number of blanks at the start of a block, given where its first line
shows none of its own. -/
def indentationHint (cs : List Char) : List Char :=
  if cs.head?.any fun c => c == ' ' || isBreak c then ['2'] else []

/-- What becomes of the line ends at the end of a block: `-` when there is none,
nothing when there is one, and `+` when there are more or the block holds
nothing else. -/
def endingHint (cs : List Char) : List Char :=
  match cs.reverse with
  | [] => ['-']
  | [last] => if isBreak last then ['+'] else ['-']
  | last :: previous :: _ =>
      if !isBreak last then ['-'] else if isBreak previous then ['+'] else []

def literal (width : Nat) (cs : List Char) : List Char :=
  ['|'] ++ indentationHint cs ++ endingHint cs ++ ['\n'] ++
    indented width '\n' cs

/-- The written form of a text whose lines are moved in by `width` blanks. -/
def scalarChars (width : Nat) (cs : List Char) : List Char :=
  match Style.ofChars cs with
  | .plain => cs
  | .singleQuoted => singleQuoted width cs
  | .doubleQuoted => doubleQuoted cs
  | .literal => literal width cs

/-- The written form of a text together with the end of its last line.  A block
that ends in a line end needs no other one. -/
def scalarLine (width : Nat) (text : String) : String :=
  let cs := text.toList
  let ending :=
    if Style.ofChars cs = .literal ∧ endsInBreak cs then [] else ['\n']
  String.ofList (scalarChars width cs ++ ending)

end Yaml
end ByteMachine
