import ByteMachine.Command.Path

/-!
# The surroundings of the working directory

Below the root stand the usual directories of a system, and some places there
are no files but devices.  What is written to a device is not kept, and reading
from one ends at once.
-/

namespace ByteMachine

/-- A place that bytes can be written to and that does not keep them. -/
inductive Device where
  /-- Takes everything and shows nothing. -/
  | null
  /-- Has no room left for a single byte. -/
  | full
  /-- The channel that input comes from, which has none. -/
  | input
  /-- The channel for output. -/
  | output
  /-- The channel for errors. -/
  | errors
  deriving DecidableEq, Repr

namespace Device

def ofName? (name : String) : Option Device :=
  if name = "null" then some null
  else if name = "full" then some full
  else if name = "stdin" then some input
  else if name = "stdout" then some output
  else if name = "stderr" then some errors
  else none

/-- The device at a place. -/
def atPlace? : Place → Option Device
  | ["/", "dev", name] => ofName? name
  | _ => none

end Device

namespace Place

def rootDirectories : List String :=
  ["bin", "boot", "dev", "etc", "home", "lib", "media", "mnt", "opt", "proc",
    "root", "run", "sbin", "srv", "sys", "tmp", "usr", "var"]

/-- Whether there is a directory at a place whatever files there are: the root
and the directories below it, the working directory and those above it. -/
def isStandard : Place → Bool
  | ["/"] => true
  | ["/", name] => rootDirectories.contains name
  | place => place.all fun name => name = ".."

end Place
end ByteMachine
