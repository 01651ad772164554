import SceneTracer.CommandLine.Report

namespace SceneTracer

/-!
# The command

Takes a view of the file system, runs the files that the arguments name, and stores the pictures
that they made. Only the working directory and the directory for pictures are looked at, and no
programs are at hand, so that files can be run only as they are.
-/

namespace Command

/-- The text that help prints. -/
def usage : String :=
  "Evaluate scene programs and render them to pixmap images\n\n" ++
  "Usage: [OPTIONS] FILES...\n\n" ++
  "Options:\n" ++
  "      --no-preprocess      Read files as they are\n" ++
  "      --cpp PROGRAM        Preprocessor, run as PROGRAM -E -x c -P FILE\n" ++
  "      --shadow-bias F      Offset along the normal of rays that leave a surface\n" ++
  "      --output-dir DIR     Directory of images with relative names\n" ++
  "  -v, --verbose            More log output\n" ++
  "  -h, --help               Print help\n" ++
  "  -V, --version            Print version"

/-- How many calls of the scene language may be nested. -/
def callLimit : Nat := 1000000

/-- The names in a path. -/
def names (path : String) : List String := (path.splitOn "/").filter (· != "")

/-- What stands at a place and below it, at most `levels` directories deep; all files are shown
empty. -/
def entriesBelow : Nat → String → Place → IO (List (Place × Entry))
  | 0, _, _ => return []
  | levels + 1, path, place => do
    try
      let children ← (← IO.FS.realPath path).readDir
      let nested : List (List (Place × Entry)) ← children.toList.mapM fun child =>
        entriesBelow levels (Path.join path child.fileName) (place ++ [child.fileName])
      return (place, .directory) :: nested.flatten
    catch _ => return [(place, .file .empty)]

/-- How many directories deep the file system is looked at. -/
def levels : Nat := 16

/-- The directories on the way to a place. -/
def ancestors (place : Place) : List (Place × Entry) :=
  (List.range place.length).map fun n => (place.take n, .directory)

/-- The content of a file, if it can be read. -/
def content? (path : String) : IO (Option ByteArray) := do
  try
    return some (← IO.FS.readBinFile path)
  catch _ => return none

/-- A view of the file system in which the named files have their contents. -/
def view (named directories : List String) : IO Files := do
  let working := names (← IO.currentDir).toString
  let mut entries := ancestors working ++ (← entriesBelow levels "." working) ++
    CommandLine.toolEntries
  for path in directories do
    if path.startsWith "/" then
      let place := names path
      entries := entries ++ ancestors place ++ (← entriesBelow levels path place)
  let mut files : Files :=
    { entries, workingDirectory := working, links := CommandLine.toolLinks }
  for path in named do
    if let some content ← content? path then
      if let .ok place := files.resolve path then
        files := files.setEntry place (.file content)
  return files

/-- Stores the files that a run has changed. -/
def storeChanges (before after : Files) : IO Unit := do
  for (place, entry) in after.entries do
    if let .file content := entry then
      let kept := match before.entryAt? place with
        | some (.file old) => old == content
        | _ => false
      unless kept do
        IO.FS.writeBinFile ("/" ++ "/".intercalate place) content

end Command

end SceneTracer

open SceneTracer in
/-- Runs the command with the given arguments. -/
def main (arguments : List String) : IO UInt32 := do
  match CommandLine.parse arguments with
  | .help => IO.println Command.usage
  | .version => IO.println "0.1.0"
  | .wrongUse => IO.eprintln Command.usage
  | .run _ => pure ()
  let (named, directories) := match CommandLine.parse arguments with
    | .run options => (options.files, options.outputDirectory.toList)
    | _ => ([], [])
  let before ← Command.view named directories
  let report := CommandLine.execute Command.callLimit before arguments
  for line in report.complaints do
    IO.eprintln line
  Command.storeChanges before report.files
  return report.status.toUInt32
