import DepAtlas.Crawl.Json
import DepAtlas.Json.Printer
import DepAtlas.Report.Filter

/-!
A report for other programs, as a JSON document.
-/

namespace DepAtlas.Report

/-- A member that is left out without entries. -/
def listMember {α : Type} (name : String) (encode : α → Json) (entries : List α) :
    List (String × Json) :=
  if entries.isEmpty then [] else [(name, .ofList encode entries)]

def toJson (options : ReportOptions) (graph : DependencyGraph) : Json :=
  let dependencies := options.filter.dependencies graph
  .obj ([("dependencies", .ofList Dependency.toJson dependencies),
    ("methods", .ofList Method.toJson (options.filter.methods graph)),
    ("structures", .ofList StructureEntry.toJson (options.filter.structures graph)),
    ("cycles", .ofList .strings graph.cycles)] ++
    listMember "changes" DependencyChange.toJson graph.changes ++
    listMember "failures" FileFailure.toJson graph.failures ++
    (if options.stats then [("stats", graph.stats.toJson)] else []) ++
    [("metadata", .obj [("format_version", .str "1.0"), ("generated_at", .nat options.generatedAt),
      ("total_dependencies", .nat dependencies.length)])])

def renderJson (options : ReportOptions) (graph : DependencyGraph) : String :=
  (toJson options graph).pretty ++ "\n"

end DepAtlas.Report
