import DepAtlas.CommandLine.Flag
import DepAtlas.Config.Load
import DepAtlas.Report

/-!
What the command line asks for, and which values its flags take.
-/

namespace DepAtlas

/-- Why a command line is refused. -/
inductive ArgumentError
  /-- There is no path. -/
  | noPaths
  /-- A flag that does not exist. -/
  | unknown (argument : String)
  /-- A switch with a value. -/
  | unwantedValue (switch : Switch) (value : String)
  /-- A flag that must not be repeated. -/
  | repeated (flag : Flag)
  /-- A setting or path without a value, or with one that is not among the possible ones. -/
  | noValue (name value : String)
  /-- A value that is not a number. -/
  | notCount (setting : Setting) (value : String)
deriving Repr, DecidableEq, Inhabited

namespace ArgumentError

def message : ArgumentError → String
  | noPaths => "the following required arguments were not provided: <PATHS>..."
  | unknown argument => s!"unexpected argument '{argument}' found"
  | unwantedValue switch value => s!"unexpected value '{value}' for '--{switch.longName}' found"
  | repeated flag => s!"the argument '--{flag.longName}' cannot be used multiple times"
  | noValue name value =>
    if value.isEmpty then s!"a value is required for '{name}' but none was supplied"
    else s!"invalid value '{value}' for '{name}'"
  | notCount setting value => s!"invalid value '{value}' for '--{setting.longName}'"

end ArgumentError

/-- The layers that one use of a flag names. -/
inductive LayerChoice
  | only (layer : Layer)
  | every
deriving Repr, DecidableEq, Inhabited

namespace LayerChoice

def ofName? (name : String) : Option LayerChoice :=
  if name == "all" then some every
  else (Layer.all.find? fun layer => layer.name == name).map only

def layers : LayerChoice → List Layer
  | only layer => [layer]
  | every => Layer.all

def names (choice : LayerChoice) : List String :=
  choice.layers.map Layer.name

end LayerChoice

/-- What the command line asks for. -/
structure Arguments where
  paths : List Path := []
  depth : Option Nat := none
  layers : List LayerChoice := []
  /-- Texts of which a shown entry contains one. -/
  wanted : List String := []
  /-- Texts of which a shown entry contains none. -/
  unwanted : List String := []
  /-- Globs of paths that are not walked. -/
  ignored : List String := []
  threads : Option Nat := none
  parallel : Bool := false
  incremental : Bool := false
  stateFile : Option Path := none
  noCache : Bool := false
  output : Option ReportFormat := none
  file : Option Path := none
  stats : Bool := false
  config : Option Path := none
  verbose : Bool := false
deriving Repr, Inhabited

namespace Arguments

def format (arguments : Arguments) : ReportFormat :=
  arguments.output.getD .terminal

/-- The names of the layers that are asked for, each one once; none if the flag is not used. -/
def layerNames (arguments : Arguments) : List String :=
  (arguments.layers.flatMap LayerChoice.names).eraseDups

/-- The settings that go above those of files and environment. A switch that is not used leaves them
as they are. -/
def overrides (arguments : Arguments) : Overrides where
  maxDepth := arguments.depth
  threads := arguments.threads
  parallel := if arguments.parallel then some true else none
  incremental := if arguments.incremental then some true else none
  cacheEnabled := if arguments.noCache then some false else none
  stateFile := arguments.stateFile
  layers := arguments.layerNames
  exclude := arguments.ignored

/-- The directory whose settings apply: the first path, or the directory of the file that it names. -/
def configRoot (arguments : Arguments) (fs : FileSystem) : Path :=
  let first := arguments.paths.head?.getD ⟨"."⟩
  if (fs.metadata first).toOption.any Node.isFile then
    (first.parent?.filter fun parent => !parent.isEmpty).getD ⟨"."⟩
  else first

/-- How much is logged. -/
def logDirective (arguments : Arguments) : String :=
  if arguments.verbose then "depscan=debug" else "depscan=info"

/-- Whether a flag that stands at most once has been used. -/
def has (arguments : Arguments) : Flag → Bool
  | .switch .parallel => arguments.parallel
  | .switch .incremental => arguments.incremental
  | .switch .noCache => arguments.noCache
  | .switch .stats => arguments.stats
  | .switch .verbose => arguments.verbose
  | .switch .help | .switch .version => false
  | .setting .depth => arguments.depth.isSome
  | .setting .threads => arguments.threads.isSome
  | .setting .stateFile => arguments.stateFile.isSome
  | .setting .output => arguments.output.isSome
  | .setting .file => arguments.file.isSome
  | .setting .config => arguments.config.isSome
  | .setting .layer | .setting .wanted | .setting .unwanted | .setting .ignored => false

/-- A number of 64 bits. -/
def countValue (setting : Setting) (value : String) : Except ArgumentError Nat :=
  match Environment.count? value with
  | some count => .ok count
  | none => .error (.notCount setting value)

/-- A path, which must not be empty. -/
def pathValue (name value : String) : Except ArgumentError Path :=
  if value.isEmpty then .error (.noValue name value) else .ok ⟨value⟩

/-- A value out of a list of possible ones. -/
def choiceValue {α : Type} (setting : Setting) (ofName? : String → Option α) (value : String) :
    Except ArgumentError α :=
  match ofName? value with
  | some choice => .ok choice
  | none => .error (.noValue ("--" ++ setting.longName) value)

def addValue (arguments : Arguments) (setting : Setting) (value : String) :
    Except ArgumentError Arguments :=
  let path := pathValue ("--" ++ setting.longName) value
  match setting with
  | .depth => (countValue setting value).map fun n => { arguments with depth := some n }
  | .threads => (countValue setting value).map fun n => { arguments with threads := some n }
  | .layer => (choiceValue setting LayerChoice.ofName? value).map fun choice =>
    { arguments with layers := arguments.layers ++ [choice] }
  | .output => (choiceValue setting ReportFormat.ofName? value).map fun format =>
    { arguments with output := some format }
  | .stateFile => path.map fun path => { arguments with stateFile := some path }
  | .file => path.map fun path => { arguments with file := some path }
  | .config => path.map fun path => { arguments with config := some path }
  | .wanted => .ok { arguments with wanted := arguments.wanted ++ [value] }
  | .unwanted => .ok { arguments with unwanted := arguments.unwanted ++ [value] }
  | .ignored => .ok { arguments with ignored := arguments.ignored ++ [value] }

/-- Gives a setting its value. A setting that must not be repeated is told before its value is looked
at. -/
def give (arguments : Arguments) (setting : Setting) (value : String) :
    Except ArgumentError Arguments :=
  if arguments.has (.setting setting) then .error (.repeated (.setting setting))
  else arguments.addValue setting value

def addPaths (arguments : Arguments) : List String → Except ArgumentError Arguments
  | [] => .ok arguments
  | text :: rest =>
    match pathValue "<PATHS>..." text with
    | .ok path => addPaths { arguments with paths := arguments.paths ++ [path] } rest
    | .error cause => .error cause

end Arguments

end DepAtlas
