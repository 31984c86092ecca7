import ByteMachine.Command.Subcommand

/-!
# Help

The pages of help.  A page says what its topic does and how it is written, and
explains the words used there in tables of two columns.  The right column of a
table starts two blanks behind the longest text of the left one, also where
there is nothing to say on the right.
-/

namespace ByteMachine
namespace Help

/-- A table of texts and their explanations, under a heading. -/
structure Table where
  heading : String
  rows : List (String × String)
  deriving DecidableEq, Repr

namespace Table

/-- The length of the longest text of the left column. -/
def width (table : Table) : Nat :=
  (table.rows.map fun row => row.1.length).foldl max 0

/-- A row whose left column has the given width. -/
def row (width : Nat) (left right : String) : String :=
  "  " ++ String.ofList (left.toList.rightpad width ' ') ++ "  " ++ right ++
    "\n"

def text (table : Table) : String :=
  "\n" ++ table.heading ++ ":\n" ++
    String.join (table.rows.map fun (left, right) => row table.width left right)

end Table

structure Page where
  /-- What the topic does. -/
  about : String
  /-- The words of a command line on the topic, behind the name of the program.
  -/
  usage : List String
  tables : List Table
  deriving DecidableEq, Repr

def Page.text (page : Page) : String :=
  page.about ++ "\n\nUsage: " ++
    String.intercalate " " ("octet" :: page.usage) ++ "\n" ++
    String.join (page.tables.map Table.text)

open Invocation

/-- An option with its value, as it stands in a command line. -/
def flagUsage (flag : Flag) : String :=
  "--" ++ flag.long ++ " <" ++ flag.placeholder ++ ">"

/-- The operand of a subcommand, as it stands in a command line. -/
def operandUsage (subcommand : Subcommand) : String :=
  "<" ++ subcommand.placeholder ++ ">"

/-- The words of a command line with a subcommand.  The options that may be left
out are not named one by one. -/
def usage (subcommand : Subcommand) : List String :=
  let required := subcommand.flags.filter Flag.isRequired
  let optional := subcommand.flags.filter fun flag => !flag.isRequired
  [subcommand.name] ++ (if optional.isEmpty then [] else ["[OPTIONS]"]) ++
    required.map flagUsage ++ [operandUsage subcommand]

/-- The row of an option.  Options without a letter are set off by the room for
it. -/
def flagRow (flag : Flag) : String × String :=
  let letter :=
    match flag.short with
    | some letter => "-" ++ letter.toString ++ ", "
    | none => "    "
  (letter ++ flagUsage flag, flag.about)

def helpOptionRow : String × String :=
  ("-h, --help", "Print help")

/-- What the word that asks for help does. -/
def helpAbout : String :=
  "Print this message or the help of the given subcommand(s)"

/-- The page on a topic. -/
def page : Topic → Page
  | .program =>
      { about := "Octet 8-bit bytecode virtual machine"
        usage := ["<COMMAND>"]
        tables :=
          [⟨"Commands",
              (Subcommand.all.map fun subcommand =>
                (subcommand.name, subcommand.about)) ++
                [("help", helpAbout)]⟩,
            ⟨"Options", [helpOptionRow, ("-V, --version", "Print version")]⟩] }
  | .subcommand subcommand =>
      { about := subcommand.about
        usage := usage subcommand
        tables :=
          [⟨"Arguments", [(operandUsage subcommand, "")]⟩,
            ⟨"Options", subcommand.flags.map flagRow ++ [helpOptionRow]⟩] }
  | .help =>
      { about := helpAbout
        usage := ["help", "[COMMAND]..."]
        tables :=
          [⟨"Arguments",
              [("[COMMAND]...", "Print help for the subcommand(s)")]⟩] }

def text (topic : Topic) : String :=
  (page topic).text

end Help
end ByteMachine
