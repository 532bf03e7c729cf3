import DepAtlas.Report.Filter

/-!
A report to be read in a terminal, grouped by file.
-/

namespace DepAtlas.Report.Terminal

/-- The line under a heading. -/
def rule : String := "================================"

/-- A text filled up with spaces to a width. -/
def padded (width : Nat) (text : String) : String :=
  text ++ String.ofList (List.replicate (width - text.length) ' ')

/-- The calls of a method as a tree. -/
def callLines : List String → List String
  | [] => []
  | [call] => ["      └─ " ++ call ++ "()"]
  | call :: rest => ("      ├─ " ++ call ++ "()") :: callLines rest

/-- A part that is shown only if it is there. -/
def optionalPart (before : String) : Option String → String
  | some text => before ++ text
  | none => ""

def dependencyLines (dependency : Dependency) : List String :=
  let layer := s!"  [{dependency.layer}] "
  let line := s!" (line {dependency.line})"
  match dependency.detail with
  | some (.struct declaration base) =>
    [layer ++ declaration ++ " " ++ dependency.target ++ optionalPart " : " base ++ line]
  | some (.method returnType calls) =>
    (layer ++ dependency.target ++ "()" ++ optionalPart " -> " returnType ++ line) ::
      callLines calls
  | none => [layer ++ dependency.target ++ line]

/-- The lines of dependencies, with a heading before each group of one file; `current` is the file of the
dependency before them. -/
def groupedLines : Option Path → List Dependency → List String
  | _, [] => []
  | current, dependency :: rest =>
    let heading :=
      if current.any (· == dependency.source) then [] else ["", dependency.source.text]
    heading ++ dependencyLines dependency ++ groupedLines (some dependency.source) rest

/-- The lines of the dependencies that are shown. -/
def dependencySection (filter : ReportFilter) (graph : DependencyGraph) : List String :=
  match filter.dependencies graph with
  | [] => ["", "No dependencies found."]
  | dependencies => groupedLines none dependencies

/-- A block of lines with a heading, which is left out without entries. -/
def block {α : Type} (heading : String) (entries : List α) (lines : α → List String) :
    List String :=
  if entries.isEmpty then [] else "" :: heading :: entries.flatMap lines

def changeLines (change : DependencyChange) : List String :=
  ("  " ++ change.path.text) ::
    change.added.map ("    + " ++ ·) ++ change.removed.map ("    - " ++ ·)

def failureLine (failure : FileFailure) : String :=
  s!"  {failure.path} [{failure.code}] {failure.message}"

/-- A count that is left out when it is zero. -/
def countLine (label : String) (count : Nat) : List String :=
  if count == 0 then [] else [label ++ toString count]

/-- The lines of the account of a crawl. -/
def statsLines (stats : CrawlStats) : List String :=
  ["", "Statistics", rule,
    s!"  files discovered:   {stats.discovered}",
    s!"  files analyzed:     {stats.analyzed}",
    s!"  files reused:       {stats.reused}",
    s!"  files unsupported:  {stats.unsupported}",
    s!"  files failed:       {stats.failed}"] ++
  countLine "  files deleted:      " stats.deleted ++
  countLine "  unreadable entries: " stats.walkErrors ++
  [s!"  dependencies:       {stats.dependencies}"] ++
  stats.byLayer.map (fun (layer, count) => "    " ++ padded 8 layer ++ " " ++ toString count) ++
  stats.byLanguage.map (fun (language, count) =>
    "  " ++ padded 19 language ++ " " ++ toString count ++ " files") ++
  [s!"  call resolution:    {stats.callGraph.resolvedEdges}/{stats.callGraph.callEdges} (" ++
    stats.callGraph.resolutionRate.percentText ++ "%)"] ++
  (stats.fileCache.map fun cache =>
    "  cache hit rate:     " ++ cache.hitRatio.percentText ++ "%").toList ++
  (stats.incremental.map fun incremental =>
    "  incremental reuse:  " ++ incremental.efficiency.percentText ++ "%").toList ++
  [s!"  duration:           {stats.duration} ms"]

def lines (options : ReportOptions) (graph : DependencyGraph) : List String :=
  ["Dependency Analysis Results", rule] ++
  dependencySection options.filter graph ++
  block "Call cycles" (options.filter.cycles graph)
    (fun cycle => ["  " ++ " -> ".intercalate cycle]) ++
  block "Changes since last run" graph.changes changeLines ++
  block s!"Failed files ({graph.failures.length})" graph.failures
    (fun failure => [failureLine failure]) ++
  (if options.stats then statsLines graph.stats else [])

def render (options : ReportOptions) (graph : DependencyGraph) : String :=
  String.join ((lines options graph).map (· ++ "\n"))

end DepAtlas.Report.Terminal
