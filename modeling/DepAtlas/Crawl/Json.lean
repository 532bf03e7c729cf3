import DepAtlas.CallGraph.Json
import DepAtlas.Crawl.Graph

/-!
The results of a crawl as JSON values.
-/

namespace DepAtlas

namespace FileCacheStats

def toJson (stats : FileCacheStats) : Json :=
  .obj [("entries", .nat stats.entries), ("bytes", .nat stats.bytes), ("hits", .nat stats.hits),
    ("misses", .nat stats.misses), ("evictions", .nat stats.evictions),
    ("invalidations", .nat stats.invalidations), ("rejected", .nat stats.rejected)]

/-- The counts from a record of their fields. -/
def ofJson? (json : Json) : Option FileCacheStats := do
  let record ← json.record? [
    "entries", "bytes", "hits", "misses", "evictions", "invalidations", "rejected"]
  let entries ← record.required "entries" Json.count?
  let bytes ← record.required "bytes" Json.count?
  let hits ← record.required "hits" Json.count?
  let misses ← record.required "misses" Json.count?
  let evictions ← record.required "evictions" Json.count?
  let invalidations ← record.required "invalidations" Json.count?
  let rejected ← record.required "rejected" Json.count?
  return { entries, bytes, hits, misses, evictions, invalidations, rejected }

end FileCacheStats

namespace IncrementalStats

def toJson (stats : IncrementalStats) : Json :=
  .obj [("tracked", .nat stats.tracked), ("analyzed", .nat stats.analyzed),
    ("skipped", .nat stats.skipped), ("cache_hits", .nat stats.cacheHits),
    ("changes", .nat stats.changes), ("deleted", .nat stats.deleted), ("moved", .nat stats.moved)]

/-- The counts from a record of their fields. -/
def ofJson? (json : Json) : Option IncrementalStats := do
  let record ← json.record? [
    "tracked", "analyzed", "skipped", "cache_hits", "changes", "deleted", "moved"]
  let tracked ← record.required "tracked" Json.count?
  let analyzed ← record.required "analyzed" Json.count?
  let skipped ← record.required "skipped" Json.count?
  let cacheHits ← record.required "cache_hits" Json.count?
  let changes ← record.required "changes" Json.count?
  let deleted ← record.required "deleted" Json.count?
  let moved ← record.required "moved" Json.count?
  return { tracked, analyzed, skipped, cacheHits, changes, deleted, moved }

end IncrementalStats

namespace FileFailure

def toJson (failure : FileFailure) : Json :=
  .obj [("path", failure.path.toJson), ("code", .str failure.code),
    ("message", .str failure.message)]

/-- A failure from a record of its fields. -/
def ofJson? (json : Json) : Option FileFailure := do
  let record ← json.record? ["path", "code", "message"]
  let path ← record.required "path" Path.ofJson?
  let code ← record.required "code" Json.str?
  let message ← record.required "message" Json.str?
  return { path, code, message }

end FileFailure

/-- The members of an object in the order of their names; of several with one name the last counts. -/
def Json.sortedMembers? : Json → Option (List (String × Json))
  | .obj members =>
    let names := (members.map (·.1)).eraseDups.mergeSort fun a b => decide (a ≤ b)
    some (names.filterMap fun name => (members.reverse.lookup name).map fun value => (name, value))
  | _ => none

namespace CrawlStats

def countsToJson (counts : List (String × Nat)) : Json :=
  .obj (counts.map fun (name, count) => (name, .nat count))

/-- Counts under names, in the order of the names. -/
def countsOfJson? (json : Json) : Option (List (String × Nat)) :=
  json.sortedMembers?.bind fun members =>
    members.mapM fun (name, value) => value.count?.map fun count => (name, count)

/-- The account as an object; parts that are not there are left out. -/
def toJson (stats : CrawlStats) : Json :=
  .obj ([("files_discovered", .nat stats.discovered), ("files_unsupported", .nat stats.unsupported),
    ("files_excluded", .nat stats.excluded), ("files_too_large", .nat stats.tooLarge),
    ("files_analyzed", .nat stats.analyzed), ("files_reused", .nat stats.reused),
    ("files_failed", .nat stats.failed), ("files_deleted", .nat stats.deleted),
    ("walk_errors", .nat stats.walkErrors), ("dependencies", .nat stats.dependencies),
    ("by_layer", countsToJson stats.byLayer), ("by_language", countsToJson stats.byLanguage),
    ("call_graph", stats.callGraph.toJson)] ++
    (stats.fileCache.map fun cache => ("file_cache", cache.toJson)).toList ++
    (stats.incremental.map fun incremental => ("incremental", incremental.toJson)).toList ++
    [("duration", .nat stats.duration)])

def fieldNames : List String := [
  "files_discovered", "files_unsupported", "files_excluded", "files_too_large", "files_analyzed",
  "files_reused", "files_failed", "files_deleted", "walk_errors", "dependencies", "by_layer",
  "by_language", "call_graph", "file_cache", "incremental", "duration"]

/-- The account from a record of its fields. -/
def ofJson? (json : Json) : Option CrawlStats := do
  let record ← json.record? fieldNames
  let discovered ← record.required "files_discovered" Json.count?
  let unsupported ← record.required "files_unsupported" Json.count?
  let excluded ← record.required "files_excluded" Json.count?
  let tooLarge ← record.required "files_too_large" Json.count?
  let analyzed ← record.required "files_analyzed" Json.count?
  let reused ← record.required "files_reused" Json.count?
  let failed ← record.required "files_failed" Json.count?
  let deleted ← record.required "files_deleted" Json.count?
  let walkErrors ← record.defaulted "walk_errors" Json.count? 0
  let dependencies ← record.required "dependencies" Json.count?
  let byLayer ← record.required "by_layer" countsOfJson?
  let byLanguage ← record.required "by_language" countsOfJson?
  let callGraph ← record.required "call_graph" CallGraphStats.ofJson?
  let fileCache ← record.absentable "file_cache" FileCacheStats.ofJson?
  let incremental ← record.absentable "incremental" IncrementalStats.ofJson?
  let duration ← record.required "duration" Json.count?
  return {
    discovered, unsupported, excluded, tooLarge, analyzed, reused, failed, deleted, walkErrors,
    dependencies, byLayer, byLanguage, callGraph, fileCache, incremental, duration }

end CrawlStats

namespace StructureIndex

/-- An index from a record whose entries stand under their names. -/
def ofJson? (json : Json) : Option StructureIndex := do
  let record ← json.record? ["entries"]
  let members ← record.required "entries" Json.sortedMembers?
  let entries ← members.mapM fun (_, value) => StructureEntry.ofJson? value
  return { entries }

end StructureIndex

namespace DependencyGraph

/-- A graph from a record of its fields. -/
def ofJson? (json : Json) : Option DependencyGraph := do
  let record ← json.record? [
    "dependencies", "methods", "conflicts", "structures", "cycles", "changes", "failures", "stats"]
  let dependencies ← record.required "dependencies" (Json.list? Dependency.ofJson?)
  let methods ← record.required "methods" (Json.list? Method.ofJson?)
  let conflicts ← record.required "conflicts" (Json.list? Conflict.ofJson?)
  let structures ← record.required "structures" StructureIndex.ofJson?
  let cycles ← record.required "cycles" (Json.list? Json.strings?)
  let changes ← record.required "changes" (Json.list? DependencyChange.ofJson?)
  let failures ← record.required "failures" (Json.list? FileFailure.ofJson?)
  let stats ← record.required "stats" CrawlStats.ofJson?
  return { dependencies, methods, conflicts, structures, cycles, changes, failures, stats }

end DependencyGraph

end DepAtlas
