import DepAtlas.Dependency.Json
import DepAtlas.Error
import DepAtlas.FileSystem.Edit
import DepAtlas.Incremental.Fingerprint
import DepAtlas.Json.Parser
import DepAtlas.Json.Printer
import DepAtlas.Width

/-!
State that outlives a run: the fingerprints of the tracked files and the dependencies found in them, kept
in a JSON file. A state file is replaced as a whole by renaming a finished neighbour over it, while a
lock on another neighbour keeps other writers out.
-/

namespace DepAtlas

namespace FileState

def ofJson? (json : Json) : Option FileState :=
  json.choice?.bind ofName?

end FileState

namespace Fingerprint

/-- A fingerprint as an object; the parts of the stamp stand beside the other fields. -/
def toJson (fingerprint : Fingerprint) : Json :=
  .obj ([("path", fingerprint.path.toJson), ("size", .nat fingerprint.stamp.size),
    ("mtime_secs", .int fingerprint.stamp.seconds), ("mtime_nanos", .nat fingerprint.stamp.nanos),
    ("content_hash", .nat fingerprint.contentHash.toNat),
    ("dependency_hash", .nat fingerprint.dependencyHash.toNat),
    ("state", .str fingerprint.state.name), ("last_analyzed", .nat fingerprint.lastAnalyzed)] ++
    (fingerprint.movedFrom.map fun path => ("moved_from", path.toJson)).toList)

def fieldNames : List String := [
  "path", "size", "mtime_secs", "mtime_nanos", "content_hash", "dependency_hash", "state",
  "last_analyzed", "moved_from"]

def hashOfJson? (json : Json) : Option UInt64 :=
  json.count?.map Nat.toUInt64

/-- Seconds, which take at most 64 bits with sign. -/
def secondsOfJson? (json : Json) : Option Int :=
  json.int?.filter fitsSigned64

/-- A fingerprint from an object of its fields. Nothing in it is passed over unread. -/
def ofJson? (json : Json) : Option Fingerprint := do
  guard json.isReadable
  let record ← json.objectRecord? fieldNames
  let path ← record.required "path" Path.ofJson?
  let size ← record.required "size" Json.count?
  let seconds ← record.required "mtime_secs" secondsOfJson?
  let nanos ← record.required "mtime_nanos" (Json.natBelow? limit32)
  let contentHash ← record.required "content_hash" hashOfJson?
  let dependencyHash ← record.required "dependency_hash" hashOfJson?
  let state ← record.required "state" FileState.ofJson?
  let lastAnalyzed ← record.required "last_analyzed" Json.count?
  let movedFrom ← record.absentable "moved_from" Path.ofJson?
  return {
    path, stamp := { size, seconds, nanos }, contentHash, dependencyHash, state, lastAnalyzed,
    movedFrom }

end Fingerprint

/-- The dependencies found in a file. -/
structure SavedResult where
  path : Path
  dependencies : List Dependency
deriving Repr

namespace SavedResult

def toJson (result : SavedResult) : Json :=
  .obj [("path", result.path.toJson),
    ("dependencies", .ofList Dependency.toJson result.dependencies)]

def ofJson? (json : Json) : Option SavedResult := do
  let record ← json.record? ["path", "dependencies"]
  let path ← record.required "path" Path.ofJson?
  let dependencies ← record.required "dependencies" (Json.list? Dependency.ofJson?)
  return { path, dependencies }

end SavedResult

/-- What a state file holds. -/
structure SavedState where
  version : Nat := 0
  fingerprints : List Fingerprint := []
  results : List SavedResult := []
deriving Repr

namespace SavedState

/-- The version of the format that is written and understood. -/
def formatVersion : Nat := 1

def toJson (state : SavedState) : Json :=
  .obj [("version", .nat state.version),
    ("fingerprints", .ofList Fingerprint.toJson state.fingerprints),
    ("results", .ofList SavedResult.toJson state.results)]

def ofJson? (json : Json) : Option SavedState := do
  let record ← json.record? ["version", "fingerprints", "results"]
  let version ← record.required "version" (Json.natBelow? limit32)
  let fingerprints ← record.required "fingerprints" (Json.list? Fingerprint.ofJson?)
  let results ← record.required "results" (Json.list? SavedResult.ofJson?)
  return { version, fingerprints, results }

def encode (state : SavedState) : Bytes :=
  state.toJson.pretty.toUTF8.toList

def decode? (bytes : Bytes) : Option SavedState := do
  let json ← Json.read? (Text.Utf8.decode none bytes)
  ofJson? json

/-- Reads a state file, if there is one. -/
def read (fs : FileSystem) (path : Path) : Except StateError (Option SavedState) :=
  match fs.read path with
  | .error failure => if failure == .notFound then .ok none else .error (.io path failure)
  | .ok bytes =>
    match decode? bytes with
    | none => .error (.corrupt path "not a saved state")
    | some state =>
      if state.version == formatVersion then .ok (some state)
      else .error (.versionMismatch path state.version formatVersion)

/-- The neighbour of a file whose name has one more ending. -/
def neighbour (path : Path) (ending : String) : Path :=
  path.withFileName (path.fileName?.getD "" ++ "." ++ ending)

/-- Replaces a state file. On failure the file is as before; directories and neighbours that were created
stay. -/
def write (fs : FileSystem) (path : Path) (state : SavedState) (time : Time) :
    FileSystem × Except StateError Unit :=
  let lock := neighbour path "lock"
  let draft := neighbour path "tmp"
  match fs.createParents path with
  | (fs, .error failure) => (fs, .error (.io path failure))
  | (fs, .ok _) =>
    match fs.ensureFile lock time with
    | .error failure => (fs, .error (.io path failure))
    | .ok fs =>
      if fs.isLocked lock then (fs, .error (.locked path))
      else
        match fs.write draft state.encode time with
        | .error failure => (fs, .error (.io path failure))
        | .ok fs =>
          match fs.flush draft, fs.rename draft path with
          | .error failure, _ => (fs, .error (.io path failure))
          | .ok _, .error failure => (fs, .error (.io path failure))
          | .ok _, .ok fs => (fs, .ok ())

end SavedState

end DepAtlas
