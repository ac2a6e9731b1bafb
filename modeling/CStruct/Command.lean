import CStruct.Program

/-!
# The command line

The command reads one source file and prints the layouts of its structs. Diagnostics go to the error
output, each behind the path of the source; with an error among them nothing is laid out.

    cstruct [--packed] [--data-model MODEL] [--] SOURCE

Every option may be given once, and nothing but the path of the source besides. What follows `--` is
the path, even if it looks like an option.
-/

namespace CStruct.Command

/-! ## Arguments -/

/-- What has been given on a command line. -/
structure Arguments where
  path? : Option String := none
  dataModel? : Option DataModel := none
  packed : Bool := false
  deriving DecidableEq

namespace Arguments

/-- Takes an argument as the path, of which there is one. It cannot be empty. -/
def withPath (a : Arguments) (path : String) : Option Arguments :=
  if a.path?.isNone && !path.isEmpty then some { a with path? := some path } else none

/-- Takes an argument as the data model, which can be given once. -/
def withDataModel (a : Arguments) (text : String) : Option Arguments :=
  match a.dataModel?, DataModel.ofText? text with
  | none, .ok d => some { a with dataModel? := some d }
  | _, _ => none

/-- Takes the option for packed layouts, which can be given once. -/
def withPacked (a : Arguments) : Option Arguments :=
  if a.packed then none else some { a with packed := true }

def options (a : Arguments) : LayoutOptions where
  dataModel := a.dataModel?.getD default
  packing := if a.packed then .packed else .natural

end Arguments

/-- Whether an argument is an option. A hyphen alone is none. -/
def isOption (arg : String) : Bool := ['-'].isPrefixOf arg.toList && arg != "-"

/-- The value that is written into an argument for the data model. -/
def inlineDataModel? (arg : String) : Option String :=
  let start := "--data-model=".toList
  if start.isPrefixOf arg.toList then some (String.ofList (arg.toList.drop start.length)) else none

/-- Reads arguments that can only be paths. -/
def readPaths (a : Arguments) (args : List String) : Option Arguments :=
  args.foldlM Arguments.withPath a

/-- Reads arguments from left to right. There is no result for a wrong use of the command. -/
def readArguments (a : Arguments) : List String → Option Arguments
  | [] => some a
  | "--" :: args => readPaths a args
  | "--packed" :: args => a.withPacked.bind fun a => readArguments a args
  | ["--data-model"] => none
  | "--data-model" :: text :: args => (a.withDataModel text).bind fun a => readArguments a args
  | arg :: args =>
    match inlineDataModel? arg with
    | some text => (a.withDataModel text).bind fun a => readArguments a args
    | none =>
      if isOption arg then none
      else (a.withPath arg).bind fun a => readArguments a args

/-! ## Running -/

/-- What a run of the command comes to. -/
inductive Outcome where
  /-- The command was used in a wrong way. -/
  | usage
  /-- The command ran, and leaves an exit code and two texts. -/
  | finished (code : Nat) (output errors : String)
  deriving DecidableEq

/-- A text of lines. -/
def unlines (ls : List String) : String := String.join (ls.map (· ++ "\n"))

/-- The lines about the diagnostics of a source. -/
def diagnosticLines (path : String) (u : TranslationUnit) : List String :=
  u.diagnostics.toList.map fun d => s!"{path}: {d}"

/-- Lays out a source that was read from `path`. -/
def runSource (path source : String) (o : LayoutOptions) : Outcome :=
  let u := TranslationUnit.ofSource source
  let lines := diagnosticLines path u
  if u.hasErrors then
    .finished 1 "" (unlines (lines ++ ["Aborting due to previous errors"]))
  else
    match Program.ofUnit u o with
    | .error e => .finished 1 "" (unlines (lines ++ [s!"Model error: {e.message}"]))
    | .ok p => .finished 0 (unlines (p.structs.map Struct.render)) (unlines lines)

/-- Why no source can be read at a path. -/
inductive ReadFailure where
  /-- Nothing is there. -/
  | missing
  /-- A directory is there. -/
  | directory
  /-- The bytes that are there are no text. -/
  | notText
  deriving DecidableEq

def ReadFailure.message (path : String) : ReadFailure → String
  | missing => s!"File '{path}' not found"
  | directory => "Os \x7b code: 21, kind: IsADirectory, message: \"Is a directory\" \x7d"
  | notText =>
    "Error \x7b kind: InvalidData, message: \"stream did not contain valid UTF-8\" \x7d"

/-- Runs the command where `read` gives the source at a path. -/
def run (read : String → Except ReadFailure String) (args : List String) : Outcome :=
  match readArguments {} args with
  | none => .usage
  | some a =>
    match a.path? with
    | none => .usage
    | some path =>
      match read path with
      | .error e => .finished 1 "" (unlines [s!"Error: {e.message path}"])
      | .ok source => runSource path source a.options

/-- What is shown to someone who used the command in a wrong way. -/
def usageText : String := "Usage: cstruct [--packed] [--data-model MODEL] [--] SOURCE\n"

end CStruct.Command
