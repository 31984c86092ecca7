/-!
# Paths

A path is a row of names between slashes.  A single dot stands for no step, a
double dot for the step to the parent directory, and slashes next to each other
count as one.
-/

namespace ByteMachine
namespace Path

/-- The names in a path, dots included. -/
def names (path : String) : List String :=
  ((path.toList.splitOn '/').filter fun name => !name.isEmpty).map String.ofList

/-- Whether a path leads from the root, and not from the working directory. -/
def isAbsolute (path : String) : Bool :=
  path.toList.head? = some '/'

/-- Whether a path ends in a slash, and so can only mean a directory. -/
def endsInSlash (path : String) : Bool :=
  path.toList.getLast? = some '/'

/-- The part of a file name behind its last dot.  A name whose only dot comes
first has none, and neither has the step to the parent directory. -/
def extensionOfName? (name : List Char) : Option (List Char) :=
  if name = ['.', '.'] then
    none
  else
    let reversed := name.reverse
    let extension := reversed.takeWhile fun c => c != '.'
    match reversed.drop (extension.length + 1) with
    | [] => none
    | _ :: _ => some extension.reverse

def extension? (path : String) : Option String := do
  let name ← ((names path).filter fun name => name ≠ ".").getLast?
  let extension ← extensionOfName? name.toList
  return String.ofList extension

/-- Files with the extension `asm` hold source text. -/
def isSource (path : String) : Bool :=
  extension? path == some "asm"

/-- The greatest length of a path in bytes. -/
def maxBytes : Nat := 4095

/-- The greatest length of a name in bytes. -/
def maxNameBytes : Nat := 255

end Path

/-- A place in the file system, as the row of names that lead to it.  Places
outside the working directory start with double dots, places given from the root
with a slash. -/
abbrev Place := List String

namespace Place

/-- The directory from which a path leads. -/
def start (path : String) : Place :=
  if Path.isAbsolute path then ["/"] else []

/-- The parent directory of a place.  That of the root is the root itself. -/
def parent (place : Place) : Place :=
  if place = ["/"] then place
  else if place.all fun name => name = ".." then place ++ [".."]
  else place.dropLast

/-- The place that a name leads to. -/
def follow (place : Place) (name : String) : Place :=
  if name = "." then place
  else if name = ".." then place.parent
  else place ++ [name]

/-- The place that a path means when every directory on its way is there. -/
def ofPath (path : String) : Place :=
  (Path.names path).foldl follow (start path)

end Place
end ByteMachine
