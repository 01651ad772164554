import SceneTracer.Decimal.Numeral
import SceneTracer.Tracer
import SceneTracer.Scalar.Binary64

namespace SceneTracer.CommandLine

/-!
# Command line options

Arguments are read from left to right. The first wrong one, or the first that asks for help or for
the version, settles what is done.

* `Options` — the files to run, and how.
* `Request` — what a command line asks for.
* `parse` — the request that arguments make.
-/

/-- The files to run, and how. -/
structure Options where
  files : List String
  /-- Files are read as they are. -/
  verbatim : Bool
  /-- The program that expands files which are not read as they are. -/
  preprocessor : String
  shadowBias : Float
  /-- The directory of pictures with relative names. -/
  outputDirectory : Option String
  /-- How much is logged. -/
  verbosity : Nat

/-- What a command line asks for. -/
inductive Request
  | run (options : Options)
  | help
  | version
  /-- The arguments make no sense. -/
  | wrongUse

/-- What the arguments so far have given; the files latest first. -/
structure Given where
  files : List String := []
  verbatim : Bool := false
  preprocessor : Option String := none
  shadowBias : Option Float := none
  outputDirectory : Option String := none
  verbosity : Nat := 0

/-- The options that take a value. -/
inductive Setting
  | preprocessor
  | shadowBias
  | outputDirectory
  deriving DecidableEq, Repr

/-- The setting with the given long name. -/
def Setting.ofName? : String → Option Setting
  | "cpp" => some .preprocessor
  | "shadow-bias" => some .shadowBias
  | "output-dir" => some .outputDirectory
  | _ => none

namespace Given

/-- Gives a setting its value. It must make sense, and be the first for this setting. -/
def set (given : Given) (setting : Setting) (value : String) : Option Given :=
  match setting with
  | .preprocessor =>
    if given.preprocessor.isSome then none else some { given with preprocessor := some value }
  | .shadowBias =>
    if given.shadowBias.isSome then none
    else (Decimal.readReal? value).map fun bias => { given with shadowBias := some bias }
  | .outputDirectory =>
    if given.outputDirectory.isSome || value = "" then none
    else some { given with outputDirectory := some value }

/-- Adds a file, which must have a name. -/
def addFile (given : Given) (name : String) : Option Given :=
  if name = "" then none else some { given with files := name :: given.files }

/-- What the arguments ask for when all of them are read. There must be a file. -/
def request (given : Given) : Request :=
  if given.files.isEmpty then .wrongUse
  else .run {
    files := given.files.reverse
    verbatim := given.verbatim
    preprocessor := given.preprocessor.getD "gcc"
    shadowBias := given.shadowBias.getD Tolerance.standard.shadowBias
    outputDirectory := given.outputDirectory
    verbosity := given.verbosity }

end Given

/-- Reads the arguments behind a double hyphen, which are files whatever they look like. -/
def parseFiles (given : Given) : List String → Request
  | [] => given.request
  | name :: rest =>
    match given.addFile name with
    | some given => parseFiles given rest
    | none => .wrongUse

/-- Reads a cluster of one-letter flags. A flag that asks for something of its own ends the reading
with that request. -/
def parseFlags (given : Given) : List Char → Except Request Given
  | [] => .ok given
  | 'v' :: flags => parseFlags { given with verbosity := given.verbosity + 1 } flags
  | 'h' :: _ => .error .help
  | 'V' :: _ => .error .version
  | _ => .error .wrongUse

/-- Reads a long flag, which has no value. -/
def parseLongFlag (given : Given) : String → Except Request Given
  | "no-preprocess" =>
    if given.verbatim then .error .wrongUse else .ok { given with verbatim := true }
  | "verbose" => .ok { given with verbosity := given.verbosity + 1 }
  | "help" => .error .help
  | "version" => .error .version
  | _ => .error .wrongUse

/-- What an argument looks like. -/
inductive Form
  /-- A double hyphen alone: what follows are files. -/
  | endOfOptions
  /-- A double hyphen and a name, with a value behind an equals sign or without. -/
  | long (name : String) (value : Option String)
  /-- A hyphen and letters. -/
  | flags (letters : List Char)
  | plain (text : String)

/-- Splits a text at the first equals sign in it, if there is one. -/
def splitValue (text : List Char) : String × Option String :=
  let name := text.takeWhile (· != '=')
  match text.dropWhile (· != '=') with
  | [] => (.ofList name, none)
  | _ :: value => (.ofList name, some (.ofList value))

/-- The form of an argument. A hyphen alone is plain. -/
def formOf (argument : String) : Form :=
  match argument.toList with
  | ['-', '-'] => .endOfOptions
  | '-' :: '-' :: text => .long (splitValue text).1 (splitValue text).2
  | '-' :: letter :: letters => .flags (letter :: letters)
  | _ => .plain argument

/-- Reads arguments. `awaiting` is a setting whose value is to come next. -/
def parseFrom (given : Given) (awaiting : Option Setting) : List String → Request
  | [] => if awaiting.isSome then .wrongUse else given.request
  | argument :: rest =>
    match awaiting, formOf argument with
    | some setting, .plain value =>
      match given.set setting value with
      | some given => parseFrom given none rest
      | none => .wrongUse
    | some _, _ => .wrongUse
    | none, .plain name =>
      match given.addFile name with
      | some given => parseFrom given none rest
      | none => .wrongUse
    | none, .endOfOptions => parseFiles given rest
    | none, .flags letters =>
      match parseFlags given letters with
      | .ok given => parseFrom given none rest
      | .error request => request
    | none, .long name value =>
      match Setting.ofName? name, value with
      | some setting, some value =>
        match given.set setting value with
        | some given => parseFrom given none rest
        | none => .wrongUse
      | some setting, none => parseFrom given (some setting) rest
      | none, some _ => .wrongUse
      | none, none =>
        match parseLongFlag given name with
        | .ok given => parseFrom given none rest
        | .error request => request

/-- The request that a command line makes. -/
def parse (arguments : List String) : Request := parseFrom {} none arguments

end SceneTracer.CommandLine
