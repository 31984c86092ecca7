import ByteMachine.Command.Device
import ByteMachine.Command.FileError

/-!
# Directories

The files that a command can see, by their places from the directory it works
in.  Files are read and replaced as a whole.  A path is followed name by name,
so every name before the last one must lead to a directory; directories are
there because of the files in them, besides those that every system has.
-/

namespace ByteMachine

/-- Files with their contents. -/
structure Directory where
  files : List (Place × List UInt8)
  deriving DecidableEq, Repr

/-- What can be found at a place. -/
inductive Entry where
  | file (content : List UInt8)
  | device (device : Device)
  | directory
  deriving DecidableEq, Repr

/-- Where bytes go that are written to a path. -/
inductive Destination where
  | file (place : Place)
  | device (device : Device)
  deriving DecidableEq, Repr

namespace Directory

/-- The directory that holds files at the given paths. -/
def ofFiles (files : List (String × List UInt8)) : Directory :=
  ⟨files.map fun file => (Place.ofPath file.1, file.2)⟩

/-- The content of the file at a place, if there is one. -/
def content? (directory : Directory) (place : Place) : Option (List UInt8) :=
  (directory.files.find? fun file => file.1 = place).map Prod.snd

/-- Put a file at a place, instead of the one that was there before. -/
def put (directory : Directory) (place : Place) (bytes : List UInt8) :
    Directory :=
  ⟨(place, bytes) :: directory.files.filter fun file => file.1 ≠ place⟩

@[simp]
theorem content?_put_self
    (directory : Directory) (place : Place) (bytes : List UInt8) :
    (directory.put place bytes).content? place = some bytes := by
  simp [content?, put]

/-- Putting a file at a place leaves the files at all others as they were. -/
theorem content?_put_of_ne
    (directory : Directory) {place other : Place} (bytes : List UInt8)
    (h : other ≠ place) :
    (directory.put place bytes).content? other = directory.content? other := by
  have agrees : ∀ file : Place × List UInt8,
      (file.1 ≠ place ∧ file.1 = other) ↔ file.1 = other := by
    intro file
    constructor
    · exact fun both => both.2
    · exact fun same => ⟨fun there => h (same.symm.trans there), same⟩
  simp [content?, put, h.symm, List.find?_filter, agrees]

/-- Whether there is a directory at a place: a standard one, or one that a file
lies below. -/
def hasDirectory (directory : Directory) (place : Place) : Bool :=
  place.isStandard ||
    directory.files.any fun file =>
      place.length < file.1.length && place.isPrefixOf file.1

def entry? (directory : Directory) (place : Place) : Option Entry :=
  match Device.atPlace? place, directory.content? place with
  | some device, _ => some (.device device)
  | none, some content => some (.file content)
  | none, none => if directory.hasDirectory place then some .directory else none

/-- What a name leads to from a place; a name beyond the greatest length leads
nowhere. -/
def lookUp (directory : Directory) (place : Place) (name : String) :
    Except FileError (Option Entry) :=
  if Path.maxNameBytes < name.utf8ByteSize then .error .nameTooLong
  else .ok (directory.entry? (place.follow name))

/-- Go on to the directory of the given name. -/
def enter (directory : Directory) (place : Place) (name : String) :
    Except FileError Place := do
  match ← directory.lookUp place name with
  | none => .error .notFound
  | some .directory => .ok (place.follow name)
  | some _ => .error .notDirectory

/-- Follow a path up to its last name: the place reached and that name.  The
path of the root has no last name. -/
def approach (directory : Directory) (path : String) :
    Except FileError (Place × Option String) := do
  if Path.maxBytes < path.utf8ByteSize then
    .error .nameTooLong
  else if path = "" then
    .error .notFound
  else
    let place ←
      (Path.names path).dropLast.foldlM directory.enter (Place.start path)
    return (place, (Path.names path).getLast?)

/-- The content of the file at a path; reading from a device ends at once. -/
def read (directory : Directory) (path : String) :
    Except FileError (List UInt8) := do
  match ← directory.approach path with
  | (_, none) => .error .isDirectory
  | (place, some name) =>
      match ← directory.lookUp place name with
      | none => .error .notFound
      | some .directory => .error .isDirectory
      | some (.file content) =>
          if Path.endsInSlash path then .error .notDirectory else .ok content
      | some (.device _) =>
          if Path.endsInSlash path then .error .notDirectory else .ok []

/-- Where bytes go that are written to a path.  Dots and a slash at the end name
a directory, whether or not it is there. -/
def destination (directory : Directory) (path : String) :
    Except FileError Destination := do
  match ← directory.approach path with
  | (_, none) => .error .isDirectory
  | (place, some name) =>
      if name = "." ∨ name = ".." ∨ Path.endsInSlash path then
        .error .isDirectory
      else
        match ← directory.lookUp place name with
        | some .directory => .error .isDirectory
        | some (.device device) => .ok (.device device)
        | _ => .ok (.file (place.follow name))

end Directory
end ByteMachine
