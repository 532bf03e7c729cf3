import DepAtlas.Report.Filter

/-!
A report as a directed graph in the DOT language. The kind of a node stands in front of its name, so
that a module and a method of one name stay apart. Nodes and edges are sorted and unique.
-/

namespace DepAtlas.Report.Dot

/-- What a node stands for. -/
inductive Kind
  | file
  | module
  | struct
  | method
deriving Repr, DecidableEq

namespace Kind

def name : Kind → String
  | file => "file"
  | module => "module"
  | struct => "struct"
  | method => "method"

/-- The shape in which such nodes are drawn. -/
def shape : Kind → String
  | file => "box"
  | module => "ellipse"
  | struct => "component"
  | method => "oval"

/-- The kind of the targets of a layer. -/
def ofLayer : Layer → Kind
  | .module => module
  | .struct => struct
  | .method => method

end Kind

/-- A node of the graph. -/
structure Node where
  kind : Kind
  label : String
deriving Repr, DecidableEq

namespace Node

/-- The name by which edges refer to the node. -/
def id (node : Node) : String :=
  node.kind.name ++ ":" ++ node.label

end Node

/-- An edge of the graph. -/
structure Edge where
  source : String
  target : String
  label : String
deriving Repr, DecidableEq

namespace Edge

/-- Whether an edge does not come after another one: by source, then target, then label. -/
def le (a b : Edge) : Bool :=
  if a.source != b.source then decide (a.source ≤ b.source)
  else if a.target != b.target then decide (a.target ≤ b.target)
  else decide (a.label ≤ b.label)

end Edge

/-- What an edge from a file to a target says. -/
def relation : Layer → String
  | .module => "imports"
  | .struct => "declares"
  | .method => "defines"

/-- The file of a dependency. -/
def fileNode (dependency : Dependency) : Node :=
  ⟨.file, dependency.source.text⟩

def targetNode (dependency : Dependency) : Node :=
  ⟨Kind.ofLayer dependency.layer, dependency.target⟩

def baseNode? (dependency : Dependency) : Option Node :=
  dependency.base?.map fun base => ⟨.struct, base⟩

def dependencyNodes (dependency : Dependency) : List Node :=
  (baseNode? dependency).toList ++ [fileNode dependency, targetNode dependency]

def dependencyEdges (dependency : Dependency) : List Edge :=
  let target := (targetNode dependency).id
  ⟨(fileNode dependency).id, target, relation dependency.layer⟩ ::
    ((baseNode? dependency).map fun base => (⟨target, base.id, "extends"⟩ : Edge)).toList

/-- The calls of a method that lead to a method of the graph. -/
def knownCalls (graph : DependencyGraph) (method : Method) : List String :=
  method.dependencies.filter fun callee => graph.methods.any (·.name == callee)

/-- The nodes of a method and of the methods it calls. -/
def methodNodes (graph : DependencyGraph) (method : Method) : List Node :=
  (knownCalls graph method).map (⟨.method, ·⟩) ++ [⟨.method, method.name⟩]

def methodEdges (graph : DependencyGraph) (method : Method) : List Edge :=
  (knownCalls graph method).map fun callee =>
    ⟨(⟨.method, method.name⟩ : Node).id, (⟨.method, callee⟩ : Node).id, "calls"⟩

/-- The nodes in the order of their names. -/
def nodes (filter : ReportFilter) (graph : DependencyGraph) : List Node :=
  ((filter.dependencies graph).flatMap dependencyNodes ++
    (filter.methods graph).flatMap (methodNodes graph)).eraseDups.mergeSort
      fun a b => decide (a.id ≤ b.id)

/-- The edges in order. -/
def edges (filter : ReportFilter) (graph : DependencyGraph) : List Edge :=
  ((filter.dependencies graph).flatMap dependencyEdges ++
    (filter.methods graph).flatMap (methodEdges graph)).eraseDups.mergeSort Edge.le

/-- A text as it stands between double quotes. -/
def escapeText : Text → Text
  | [] => []
  | c :: rest =>
    if c == '\\' || c == '"' then '\\' :: c :: escapeText rest else c :: escapeText rest

/-- A text in double quotes. -/
def quoted (text : String) : String :=
  "\"" ++ String.ofList (escapeText text.toList) ++ "\""

def nodeLine (node : Node) : String :=
  "  " ++ quoted node.id ++ " [label=" ++ quoted node.label ++ ", shape=" ++ node.kind.shape ++ "];"

def edgeLine (edge : Edge) : String :=
  "  " ++ quoted edge.source ++ " -> " ++ quoted edge.target ++ " [label=" ++ quoted edge.label ++ "];"

def lines (options : ReportOptions) (graph : DependencyGraph) : List String :=
  ["digraph dependencies \x7b", "  rankdir=LR;", "  node [style=rounded];",
    "  edge [arrowhead=vee];", ""] ++
  (nodes options.filter graph).map nodeLine ++ [""] ++
  (edges options.filter graph).map edgeLine ++ ["\x7d"]

def render (options : ReportOptions) (graph : DependencyGraph) : String :=
  String.join ((lines options graph).map (· ++ "\n"))

end DepAtlas.Report.Dot
