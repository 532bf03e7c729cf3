import DepAtlas.Dependency
import DepAtlas.Json.Decode
import DepAtlas.Width

/-!
Dependencies as JSON values.
-/

namespace DepAtlas

def Path.toJson (path : Path) : Json :=
  .str path.text

def Path.ofJson? (json : Json) : Option Path :=
  json.str?.map Path.mk

def Layer.toJson (layer : Layer) : Json :=
  .str layer.name

def Layer.ofJson? (json : Json) : Option Layer :=
  json.choice?.bind fun name => Layer.all.find? (·.name == name)

def Language.toJson (language : Language) : Json :=
  .str language.id

def Language.ofJson? (json : Json) : Option Language :=
  json.choice?.bind Language.ofId?

namespace Detail

/-- A detail as an object that names its kind first; absent parts are left out. -/
def toJson : Detail → Json
  | struct declaration base =>
    .obj ([("kind", .str "struct"), ("declaration", .str declaration)] ++
      (base.map fun base => ("base", Json.str base)).toList)
  | method returnType calls =>
    .obj ([("kind", .str "method")] ++
      (returnType.map fun result => ("return_type", Json.str result)).toList ++
      [("calls", .strings calls)])

def ofStructJson? (json : Json) : Option Detail := do
  let record ← json.record? ["declaration", "base"]
  let declaration ← record.required "declaration" Json.str?
  let base ← record.absentable "base" Json.str?
  return .struct declaration base

def ofMethodJson? (json : Json) : Option Detail := do
  let record ← json.record? ["return_type", "calls"]
  let returnType ← record.absentable "return_type" Json.str?
  let calls ← record.defaulted "calls" Json.strings? []
  return .method returnType calls

def ofKind? (kind : String) (json : Json) : Option Detail :=
  if kind == "struct" then ofStructJson? json
  else if kind == "method" then ofMethodJson? json
  else none

/-- A detail from an object that names its kind, or an array whose first item does. Nothing in it is
passed over unread. -/
def ofJson? (json : Json) : Option Detail := do
  guard json.isReadable
  match json with
  | .obj members =>
    match members.filter (·.1 == "kind") with
    | [(_, kind)] =>
      kind.str?.bind fun kind => ofKind? kind (.obj (members.filter (·.1 != "kind")))
    | _ => none
  | .arr (kind :: items) => kind.str?.bind fun kind => ofKind? kind (.arr items)
  | _ => none

end Detail

namespace Dependency

/-- A dependency as an object; an absent detail is left out. -/
def toJson (dependency : Dependency) : Json :=
  .obj ([("source", dependency.source.toJson), ("target", .str dependency.target),
    ("layer", dependency.layer.toJson), ("language", dependency.language.toJson),
    ("line", .nat dependency.line)] ++
    (dependency.detail.map fun detail => ("detail", detail.toJson)).toList)

/-- A dependency from a record of its fields. -/
def ofJson? (json : Json) : Option Dependency := do
  let record ← json.record? ["source", "target", "layer", "language", "line", "detail"]
  let source ← record.required "source" Path.ofJson?
  let target ← record.required "target" Json.str?
  let layer ← record.required "layer" Layer.ofJson?
  let language ← record.required "language" Language.ofJson?
  let line ← record.required "line" (Json.natBelow? limit32)
  let detail ← record.absentable "detail" Detail.ofJson?
  return { source, target, layer, language, line, detail }

end Dependency

end DepAtlas
