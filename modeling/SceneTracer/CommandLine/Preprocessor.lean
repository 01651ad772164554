import SceneTracer.Error
import SceneTracer.Files

namespace SceneTracer.CommandLine

/-!
# Source texts of files

A file is read as it is, or a preprocessor is run on it and its output is taken. The programs that can
be run are given, each by what it does with its arguments.

* `Program`, `Programs` — a program that can be run, and those that are at hand.
* `Programs.find` — how a program is found.
* `toolEntries`, `toolLinks` — what a tree of files holds of the programs.
* `sourceText` — the source text of a file, or why there is none.
-/

/-- What a program leaves when it ends. -/
structure Outcome where
  status : Nat
  output : ByteArray
  complaint : String

/-- A program that can be run, as a function of its arguments. -/
abbrev Program := List String → Outcome

/-- The programs that are at hand, by name. -/
abbrev Programs := List (String × Program)

/-- The directory that programs are in. -/
def toolDirectory : Place := ["usr", "bin"]

/-- The content of a program's file, as far as anything reads it: machine code, which is no text. -/
def machineCode : ByteArray := ⟨#[0x7F, 0x45, 0x4C, 0x46, 0xFF]⟩

/-- The files of the programs, and the directories on the way to them. -/
def toolEntries (programs : Programs := []) : List (Place × Entry) :=
  (["usr"], .directory) :: (toolDirectory, .directory) ::
    programs.map fun (name, _) => (toolDirectory ++ [name], .file machineCode)

/-- The directory of programs has a second, shorter path. -/
def toolLinks : List (Place × Place) := [(["bin"], toolDirectory)]

namespace Programs

/-- The program at a place, if one is there. -/
def at? (programs : Programs) (place : Place) : Option Program :=
  if place.dropLast = toolDirectory then place.getLast?.bind fun name => programs.lookup name
  else none

/-- Finds a program. A name with a slash is a path to it; any other name is looked for where programs
are. What is found but is no program cannot be run. -/
def find (programs : Programs) (files : Files) (name : String) : Except FileFault Program := do
  if name.contains '/' then
    let _ ← files.entry name
    match programs.at? (← files.resolve name) with
    | some program => return program
    | none => throw .notExecutable
  else if name = "." || name = ".." then throw .notExecutable
  else if Files.maxName < name.utf8ByteSize then throw .nameTooLong
  else
    match programs.lookup name with
    | some program => return program
    | none => throw .missing

end Programs

/-- Why a file has no source text. -/
inductive SourceFault
  | unreadable (path : String) (reason : FileFault)
  | notUtf8 (path : String)
  | cannotRun (program : String) (reason : FileFault)
  | failed (program path : String) (status : Nat) (complaint : String)
  | outputNotUtf8

/-- The text of a fault. -/
def SourceFault.message : SourceFault → String
  | .unreadable path reason => "cannot read " ++ path ++ ": " ++ reason.message
  | .notUtf8 path => "cannot read " ++ path ++ ": stream did not contain valid UTF-8"
  | .cannotRun program reason =>
    "cannot run preprocessor " ++ quoted program ++ ": " ++ reason.message
  | .failed program path status complaint =>
    quoted program ++ " failed on " ++ path ++ " (exit status: " ++ toString status ++ "): "
      ++ complaint
  | .outputNotUtf8 => "preprocessor output is not valid UTF-8"

/-- The source text of a file: its content, or what a preprocessor makes of it. -/
def sourceText (programs : Programs) (files : Files) (preprocessor : Option String) (path : String) :
    Except SourceFault String :=
  match preprocessor with
  | none =>
    match files.read path with
    | .error reason => .error (.unreadable path reason)
    | .ok content =>
      match String.fromUTF8? content with
      | some text => .ok text
      | none => .error (.notUtf8 path)
  | some name =>
    match programs.find files name with
    | .error reason => .error (.cannotRun name reason)
    | .ok program =>
      let result := program ["-E", "-x", "c", "-P", path]
      if result.status = 0 then
        match String.fromUTF8? result.output with
        | some text => .ok text
        | none => .error .outputNotUtf8
      else .error (.failed name path result.status result.complaint)

end SceneTracer.CommandLine
