namespace SceneTracer

/-!
# Files

A tree of directories and files in which nothing is protected and there is room for every file, so
that a file which can be made can be written as a whole.

* `FileFault` — why a path cannot be used.
* `Files` — the tree and the working directory.
* `Path.join` — a path inside a directory.
* `Files.resolve`, `Files.entry` — the place that a path leads to, and what is there.
* `Files.read`, `Files.write` — the content of a file.
-/

/-- Why a path cannot be used. -/
inductive FileFault
  | missing
  /-- A name leads on from something that is no directory. -/
  | notDirectory
  | isDirectory
  | nameTooLong
  | notExecutable
  | nulInName
  deriving DecidableEq, Repr

/-- Why a path cannot be used, in the words of the operating system. -/
def FileFault.message : FileFault → String
  | .missing => "No such file or directory (os error 2)"
  | .notDirectory => "Not a directory (os error 20)"
  | .isDirectory => "Is a directory (os error 21)"
  | .nameTooLong => "File name too long (os error 36)"
  | .notExecutable => "Permission denied (os error 13)"
  | .nulInName => "file name contained an unexpected NUL byte"

/-- What a path can lead to. -/
inductive Entry
  | directory
  | file (content : ByteArray)

/-- A place in the tree: the names on the way from the root. -/
abbrev Place := List String

/-- A tree of directories and files. The root is always a directory. -/
structure Files where
  entries : List (Place × Entry)
  /-- Where paths start that do not begin with a slash. -/
  workingDirectory : Place
  /-- Places that stand for others, which stand for themselves. -/
  links : List (Place × Place) := []

/-- Names with slashes between them. A path that begins with a slash starts at the root. -/
abbrev Path := String

/-- The path of `name` in the directory `dir`: `name` itself if it begins with a slash. -/
def Path.join (dir name : Path) : Path :=
  if name.startsWith "/" then name
  else if dir = "" || dir.endsWith "/" then dir ++ name
  else dir ++ "/" ++ name

namespace Files

/-- The longest name in a directory, in bytes. -/
def maxName : Nat := 255

/-- The longest path, in bytes. -/
def maxPath : Nat := 4095

/-- The entry at a place. -/
def entryAt? (files : Files) (place : Place) : Option Entry :=
  if place.isEmpty then some .directory else files.entries.lookup place

/-- The place that a place stands for. -/
def target (files : Files) (place : Place) : Place := (files.links.lookup place).getD place

/-- Follows one name from a place, which must be a directory. A single dot stays there, a double dot
goes up, but not above the root. -/
def follow (files : Files) (place : Place) (name : String) : Except FileFault Place :=
  match files.entryAt? place with
  | none => .error .missing
  | some (.file _) => .error .notDirectory
  | some .directory =>
    if name = "." then .ok place
    else if name = ".." then .ok place.dropLast
    else if maxName < name.utf8ByteSize then .error .nameTooLong
    else .ok (files.target (place ++ [name]))

/-- The names in a path. A path is not empty and not too long; slashes may be repeated. -/
def namesIn (path : Path) : Except FileFault (List String) :=
  if path.contains '\x00' then .error .nulInName
  else if path = "" then .error .missing
  else if maxPath < path.utf8ByteSize then .error .nameTooLong
  else .ok ((path.splitOn "/").filter (· != ""))

/-- Follows names from the place where a path starts. -/
def walk (files : Files) (path : Path) (names : List String) : Except FileFault Place :=
  names.foldlM files.follow (if path.startsWith "/" then [] else files.workingDirectory)

/-- The place that a path leads to. All names but the last must lead to directories; whether there is
an entry at the place itself is left open. -/
def resolve (files : Files) (path : Path) : Except FileFault Place := do
  files.walk path (← namesIn path)

/-- The entry that a path leads to, which is a directory if the path ends with a slash. -/
def entry (files : Files) (path : Path) : Except FileFault Entry := do
  match files.entryAt? (← files.resolve path) with
  | some (.file content) =>
    if path.endsWith "/" then throw .notDirectory
    return .file content
  | some .directory => return .directory
  | none => throw .missing

/-- The content of the file that a path leads to. -/
def read (files : Files) (path : Path) : Except FileFault ByteArray := do
  match ← files.entry path with
  | .file content => return content
  | .directory => throw .isDirectory

/-- The tree with another entry at a place. -/
def setEntry (files : Files) (place : Place) (entry : Entry) : Files :=
  { files with entries := (place, entry) :: files.entries.filter fun e => e.1 != place }

/-- The tree in which the file that a path leads to has the given content. The file is made if there
is none, in a directory that there must be. A path that ends with a slash can only mean a directory,
so its last name is not looked at. -/
def write (files : Files) (path : Path) (content : ByteArray) : Except FileFault Files := do
  let names ← namesIn path
  if path.endsWith "/" then
    let _ ← files.walk path (names.dropLast ++ ["."])
    throw .isDirectory
  let place ← files.walk path names
  match files.entryAt? place with
  | some .directory => throw .isDirectory
  | _ => return files.setEntry place (.file content)

/-- The tree with a directory at a place below the working directory, and with all directories on the
way to it. -/
def makeDirectories (files : Files) (names : List String) : Files :=
  (names.foldl
    (fun (made : Files × Place) name =>
      let place := made.2 ++ [name]
      match made.1.entryAt? place with
      | some _ => (made.1, place)
      | none => (made.1.setEntry place .directory, place))
    (files, files.workingDirectory)).1

/-- All files below the working directory, with their paths from there. -/
def listing (files : Files) : List (String × ByteArray) :=
  files.entries.filterMap fun (place, entry) =>
    match entry with
    | .file content =>
      if files.workingDirectory.isPrefixOf place then
        some ("/".intercalate (place.drop files.workingDirectory.length), content)
      else none
    | .directory => none

end Files

end SceneTracer
