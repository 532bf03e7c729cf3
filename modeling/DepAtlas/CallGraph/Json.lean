import DepAtlas.CallGraph.Table
import DepAtlas.Dependency.Json
import DepAtlas.StructureIndex
import DepAtlas.Width

/-!
Methods, conflicts, counts and structure entries as JSON values.
-/

namespace DepAtlas

/-- A sorted set of paths from a list. -/
def PathSet.ofJson? (json : Json) : Option PathSet :=
  (json.list? Path.ofJson?).map PathSet.ofList

namespace Method

def toJson (method : Method) : Json :=
  .obj [("name", .str method.name), ("defined_in", method.definedIn.toJson),
    ("line", .nat method.line), ("return_type", .ofOption .str method.returnType),
    ("dependencies", .strings method.dependencies),
    ("references", .ofList Path.toJson method.references)]

def ofJson? (json : Json) : Option Method := do
  let record ← json.record? [
    "name", "defined_in", "line", "return_type", "dependencies", "references"]
  let name ← record.required "name" Json.str?
  let definedIn ← record.required "defined_in" Path.ofJson?
  let line ← record.required "line" (Json.natBelow? limit32)
  let returnType ← record.optional "return_type" Json.str?
  let dependencies ← record.required "dependencies" Json.strings?
  let references ← record.required "references" PathSet.ofJson?
  return { name, definedIn, line, returnType, dependencies, references }

end Method

namespace Conflict

def toJson (conflict : Conflict) : Json :=
  .obj [("name", .str conflict.name), ("owner", conflict.owner.toJson),
    ("rejected", conflict.rejected.toJson)]

def ofJson? (json : Json) : Option Conflict := do
  let record ← json.record? ["name", "owner", "rejected"]
  let name ← record.required "name" Json.str?
  let owner ← record.required "owner" Path.ofJson?
  let rejected ← record.required "rejected" Path.ofJson?
  return { name, owner, rejected }

end Conflict

namespace CallGraphStats

def toJson (stats : CallGraphStats) : Json :=
  .obj [("methods", .nat stats.methods), ("files", .nat stats.files),
    ("call_edges", .nat stats.callEdges), ("resolved_edges", .nat stats.resolvedEdges),
    ("references", .nat stats.references), ("conflicts", .nat stats.conflicts)]

def ofJson? (json : Json) : Option CallGraphStats := do
  let record ← json.record? [
    "methods", "files", "call_edges", "resolved_edges", "references", "conflicts"]
  let methods ← record.required "methods" Json.count?
  let files ← record.required "files" Json.count?
  let callEdges ← record.required "call_edges" Json.count?
  let resolvedEdges ← record.required "resolved_edges" Json.count?
  let references ← record.required "references" Json.count?
  let conflicts ← record.required "conflicts" Json.count?
  return { methods, files, callEdges, resolvedEdges, references, conflicts }

end CallGraphStats

namespace StructureEntry

def toJson (entry : StructureEntry) : Json :=
  .obj [("name", .str entry.name), ("defined_in", entry.definedIn.toJson),
    ("line", .nat entry.line), ("declaration", .str entry.declaration),
    ("base", .ofOption .str entry.base), ("referenced_in", .ofList Path.toJson entry.referencedIn)]

def ofJson? (json : Json) : Option StructureEntry := do
  let record ← json.record? [
    "name", "defined_in", "line", "declaration", "base", "referenced_in"]
  let name ← record.required "name" Json.str?
  let definedIn ← record.required "defined_in" Path.ofJson?
  let line ← record.required "line" (Json.natBelow? limit32)
  let declaration ← record.required "declaration" Json.str?
  let base ← record.optional "base" Json.str?
  let referencedIn ← record.required "referenced_in" PathSet.ofJson?
  return { name, definedIn, line, declaration, base, referencedIn }

end StructureEntry

end DepAtlas
