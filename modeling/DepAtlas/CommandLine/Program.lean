import DepAtlas.CommandLine.Help
import DepAtlas.CommandLine.Reader
import DepAtlas.Crawl

/-!
The program: it reads its command line and settings, crawls, and writes a report to its output or to a
file.
-/

namespace DepAtlas

/-- How a run of the program ends. -/
structure Ending where
  exitCode : Nat
  output : String := ""
  /-- What the user is told about a failure. -/
  complaint : String := ""
deriving Repr, DecidableEq, Inhabited

/-- A run of the program that is ready to start. -/
structure Program where
  arguments : Arguments
  config : Config

namespace Program

/-- Name and number of this version. -/
def versionText : String := "depscan 0.1.0\n"

/-- The end of a run that failed while doing what `task` says. -/
def failed {ε : Type} [Coded ε] (task : String) (cause : ε) : Ending :=
  { exitCode := 1, complaint := s!"Error: {task}: {Coded.message cause}\n" }

/-- The end of a run whose command line gives nothing to do. -/
def stopped : ReaderStop → Ending
  | .help => { exitCode := 0, output := Help.text }
  | .version => { exitCode := 0, output := versionText }
  | .refused cause => { exitCode := 2, complaint := s!"error: {cause.message}\n" }

def settings (fs : FileSystem) (env : Environment) (arguments : Arguments) :
    Except ConfigError Config :=
  match arguments.config with
  | some path => Config.loadFile fs env path arguments.overrides
  | none => Config.load fs env (arguments.configRoot fs) arguments.overrides

def prepare (fs : FileSystem) (env : Environment) (words : List String) : Except Ending Program :=
  match Arguments.read env words with
  | .error stop => .error (stopped stop)
  | .ok arguments =>
    match settings fs env arguments with
    | .error cause => .error (failed "loading configuration" cause)
    | .ok config => .ok { arguments, config }

def crawler (program : Program) (now : Time) : Crawler :=
  { config := program.config, roots := program.arguments.paths, patterns := PatternStore.filled, now }

/-- How the report of a run is written. -/
def reportOptions (program : Program) (now : Time) : ReportOptions where
  filter := {
    layers := LayerMask.ofNames program.config.analysis.layers
    wanted := program.arguments.wanted
    unwanted := program.arguments.unwanted }
  stats := program.arguments.stats
  generatedAt := now.seconds.toNat

/-- Writes the report to the output or to the file that is asked for. -/
def deliver (program : Program) (fs : FileSystem) (now : Time) (graph : DependencyGraph) :
    FileSystem × Ending :=
  let report := Report.render program.arguments.format (program.reportOptions now) graph
  match program.arguments.file with
  | none => (fs, { exitCode := 0, output := report })
  | some path =>
    match fs.write path (Text.Utf8.encode report.toList) now with
    | .ok fs => (fs, { exitCode := 0 })
    | .error cause =>
      (fs, { exitCode := 1, complaint := s!"Error: creating {path.text}: {cause.message}\n" })

/-- Finishes a run after its crawl, which took the given number of milliseconds. -/
def finish (program : Program) (fs : FileSystem) (now : Time) (duration : Nat) :
    Except Failure DependencyGraph → FileSystem × Ending
  | .error cause => (fs, failed "analysis failed" cause)
  | .ok graph => program.deliver fs now { graph with stats := { graph.stats with duration } }

/-- A whole run, without a clock for the crawl. -/
def run (fs : FileSystem) (env : Environment) (words : List String) (now : Time) :
    FileSystem × Ending :=
  match prepare fs env words with
  | .error ending => (fs, ending)
  | .ok program =>
    let (fs, graph) := (program.crawler now).run fs
    program.finish fs now 0 graph

end Program

end DepAtlas
