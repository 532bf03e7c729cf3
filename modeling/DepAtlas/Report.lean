import DepAtlas.Report.Dot
import DepAtlas.Report.Json
import DepAtlas.Report.Terminal

/-!
Reports of a crawl in one of three formats.
-/

namespace DepAtlas

/-- The format of a report. -/
inductive ReportFormat
  | terminal
  | json
  | dot
deriving Repr, DecidableEq, Inhabited

namespace ReportFormat

def all : List ReportFormat := [.terminal, .json, .dot]

/-- The name used on the command line. -/
def name : ReportFormat → String
  | terminal => "terminal"
  | json => "json"
  | dot => "dot"

def ofName? (name : String) : Option ReportFormat :=
  all.find? fun format => format.name == name

end ReportFormat

namespace Report

def render (format : ReportFormat) (options : ReportOptions) (graph : DependencyGraph) : String :=
  match format with
  | .terminal => Terminal.render options graph
  | .json => renderJson options graph
  | .dot => Dot.render options graph

end Report

end DepAtlas
