import DepAtlas.Dependency.Json

/-!
How the dependencies of a file change from one analysis to the next. Dependencies are compared by layer
and target alone.
-/

namespace DepAtlas

namespace Dependency

/-- Layer and target as one text. -/
def key (dependency : Dependency) : String :=
  dependency.layer.name ++ ":" ++ dependency.target

end Dependency

/-- A change of the dependencies of a file. -/
structure DependencyChange where
  path : Path
  previous : List Dependency
  current : List Dependency
  /-- Keys that are there now and were not before, in order. -/
  added : List String
  /-- Keys that were there before and are not now, in order. -/
  removed : List String
  /-- Layers with an added or a removed key. -/
  layers : LayerMask
  /-- Seconds since the epoch. -/
  timestamp : Nat
deriving Repr

namespace DependencyChange

/-- The keys of one list that do not occur in another, in order and without repetition. -/
def keysBeyond (keys others : List String) : List String :=
  (keys.eraseDups.filter fun key => !others.contains key).mergeSort fun a b => decide (a ≤ b)

/-- The layers of dependencies whose key is in exactly one of two lists. -/
def layersBetween (before after : List String) (dependencies : List Dependency) : LayerMask :=
  LayerMask.ofList ((dependencies.filter fun dependency =>
    before.contains dependency.key != after.contains dependency.key).map (·.layer))

/-- The change between two lists of dependencies, if their keys differ. -/
def between? (path : Path) (previous current : List Dependency) (timestamp : Nat) :
    Option DependencyChange :=
  let before := previous.map (·.key)
  let after := current.map (·.key)
  let added := keysBeyond after before
  let removed := keysBeyond before after
  if added.isEmpty && removed.isEmpty then none
  else some {
    path, previous, current, added, removed, timestamp
    layers := layersBetween before after (previous ++ current) }

/-- A change as an object; the layers are the number of their bits. -/
def toJson (change : DependencyChange) : Json :=
  .obj [("path", change.path.toJson),
    ("previous", .ofList Dependency.toJson change.previous),
    ("current", .ofList Dependency.toJson change.current),
    ("added", .strings change.added), ("removed", .strings change.removed),
    ("layers", .nat change.layers.bits.toNat), ("timestamp", .nat change.timestamp)]

/-- A change from a record of its fields. -/
def ofJson? (json : Json) : Option DependencyChange := do
  let record ← json.record? [
    "path", "previous", "current", "added", "removed", "layers", "timestamp"]
  let path ← record.required "path" Path.ofJson?
  let previous ← record.required "previous" (Json.list? Dependency.ofJson?)
  let current ← record.required "current" (Json.list? Dependency.ofJson?)
  let added ← record.required "added" Json.strings?
  let removed ← record.required "removed" Json.strings?
  let layers ← record.required "layers" (Json.natBelow? 256)
  let timestamp ← record.required "timestamp" Json.count?
  return { path, previous, current, added, removed, layers := ⟨layers.toUInt8⟩, timestamp }

end DependencyChange

end DepAtlas
