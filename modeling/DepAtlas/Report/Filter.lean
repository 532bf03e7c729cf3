import DepAtlas.Crawl.Graph

/-!
Which parts of a graph a report shows.
-/

namespace DepAtlas

/-- What a report shows. -/
structure ReportFilter where
  layers : LayerMask := LayerMask.all
  /-- If there are any, an entry's name or file must contain one of these texts. -/
  wanted : List String := []
  /-- An entry's name and file must contain none of these texts. -/
  unwanted : List String := []
deriving Repr, Inhabited

namespace ReportFilter

/-- Whether a text occurs in another one. -/
def occurs (needle text : String) : Bool :=
  (Text.find? needle.toList text.toList).isSome

/-- Whether an entry with this name and file is shown. -/
def acceptsText (filter : ReportFilter) (name : String) (file : Path) : Bool :=
  let hit := fun needle => occurs needle name || occurs needle file.text
  !filter.unwanted.any hit && (filter.wanted.isEmpty || filter.wanted.any hit)

def accepts (filter : ReportFilter) (dependency : Dependency) : Bool :=
  filter.layers.contains dependency.layer &&
    filter.acceptsText dependency.target dependency.source

def acceptsMethod (filter : ReportFilter) (method : Method) : Bool :=
  filter.layers.contains .method && filter.acceptsText method.name method.definedIn

def acceptsStructure (filter : ReportFilter) (entry : StructureEntry) : Bool :=
  filter.layers.contains .struct && filter.acceptsText entry.name entry.definedIn

def dependencies (filter : ReportFilter) (graph : DependencyGraph) : List Dependency :=
  graph.dependencies.filter filter.accepts

def methods (filter : ReportFilter) (graph : DependencyGraph) : List Method :=
  graph.methods.filter filter.acceptsMethod

def structures (filter : ReportFilter) (graph : DependencyGraph) : List StructureEntry :=
  graph.structures.entries.filter filter.acceptsStructure

/-- The call cycles that have a method that is shown. -/
def cycles (filter : ReportFilter) (graph : DependencyGraph) : List (List String) :=
  graph.cycles.filter fun cycle =>
    graph.methods.any fun method => cycle.contains method.name && filter.acceptsMethod method

end ReportFilter

/-- How a report is written. -/
structure ReportOptions where
  filter : ReportFilter := {}
  /-- Whether the account of the crawl is shown. -/
  stats : Bool := false
  /-- Seconds since the epoch. -/
  generatedAt : Nat := 0
deriving Repr, Inhabited

end DepAtlas
