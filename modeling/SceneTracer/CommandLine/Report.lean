import SceneTracer.CommandLine.Options
import SceneTracer.CommandLine.Preprocessor
import SceneTracer.Program
import SceneTracer.Renderer

namespace SceneTracer.CommandLine

/-!
# Running files

The files of a command line run one after another, each on its own. A file that fails is reported and
does not keep the next from running.

* `Report` — what a run of the command leaves.
* `runFile` — runs one file.
* `execute` — does what arguments ask for.
-/

/-- What a run of the command leaves. -/
structure Report where
  /-- Zero if all went well, one if a file failed, two if the arguments made no sense. -/
  status : Nat
  /-- The errors, a line each. -/
  complaints : List String
  files : Files

/-- Runs one file and gives the files it leaves, and what is wrong if it failed. At most `calls` calls
may be nested. -/
def runFile (programs : Programs) (options : Options) (calls : Nat) (files : Files) (path : String) :
    Files × Option String :=
  let renderer : Renderer :=
    { tolerance := { Tolerance.standard with shadowBias := options.shadowBias }
      directory := options.outputDirectory }
  let preprocessor := if options.verbatim then none else some options.preprocessor
  match sourceText programs files preprocessor path with
  | .error fault => (files, some (path ++ ": error: " ++ fault.message))
  | .ok source =>
    match (Session.start files).run (some renderer.backend) calls source with
    | .finished session => (session.machine.world, none)
    | .failed error session =>
      (session.machine.world, some (path ++ ": " ++ error.category.name ++ ": " ++ error.message))
    | .exhausted => (files, some (path ++ ": error: calls are nested too deeply"))

/-- Runs files one after another, and reports on those that failed. -/
def runFiles (programs : Programs) (options : Options) (calls : Nat) (files : Files) :
    List String → Report
  | [] => ⟨0, [], files⟩
  | path :: paths =>
    let (files, complaint) := runFile programs options calls files path
    let later := runFiles programs options calls files paths
    match complaint with
    | none => later
    | some line => { later with status := 1, complaints := line :: later.complaints }

/-- Does what arguments ask for, where `programs` are at hand. Help and version change nothing. -/
def execute (calls : Nat) (files : Files) (arguments : List String) (programs : Programs := []) :
    Report :=
  match parse arguments with
  | .run options => runFiles programs options calls files options.files
  | .help | .version => ⟨0, [], files⟩
  | .wrongUse => ⟨2, [], files⟩

end SceneTracer.CommandLine
