import DepAtlas.Error
import DepAtlas.FileSystem.Stamp
import DepAtlas.Ratio

/-!
A cache of file contents, bounded by its number of entries and by their bytes. The entry used last is
kept longest. An entry is only handed out while the file still has the stamp it was read with.
-/

namespace DepAtlas

/-- A cached content. -/
structure CachedFile where
  path : Path
  content : String
  /-- The stamp of the file when it was read. -/
  stamp : Stamp
deriving Repr

namespace CachedFile

/-- Bytes of the content. -/
def size (file : CachedFile) : Nat :=
  file.content.utf8ByteSize

end CachedFile

/-- What has happened in a cache so far, and what it holds. -/
structure FileCacheStats where
  entries : Nat := 0
  bytes : Nat := 0
  hits : Nat := 0
  misses : Nat := 0
  evictions : Nat := 0
  invalidations : Nat := 0
  /-- Contents refused because they exceed the byte limit on their own. -/
  rejected : Nat := 0
deriving Repr, DecidableEq, Inhabited

/-- The share of look-ups that found a content. -/
def FileCacheStats.hitRatio (stats : FileCacheStats) : Ratio :=
  ⟨stats.hits, stats.hits + stats.misses⟩

/-- A cache of file contents, the entry used last first. -/
structure FileCache where
  entries : List CachedFile := []
  /-- Bytes of all entries. -/
  bytes : Nat := 0
  /-- Counts of what has happened; the fields for what is held stay zero. -/
  counts : FileCacheStats := {}
  maxEntries : Nat
  maxBytes : Nat
deriving Inhabited

namespace FileCache

/-- An empty cache; both limits must be positive. -/
def create (maxEntries maxBytes : Nat) : Except CacheError FileCache :=
  if maxEntries = 0 ∨ maxBytes = 0 then
    .error (.invalidLimits
      s!"max_entries={maxEntries}, max_bytes={maxBytes}; both must be > 0")
  else .ok { maxEntries, maxBytes }

def find? (cache : FileCache) (path : Path) : Option CachedFile :=
  cache.entries.find? (·.path == path)

/-- Whether a path has an entry; this does not count as use. -/
def contains (cache : FileCache) (path : Path) : Bool :=
  (cache.find? path).isSome

/-- Number of entries. -/
def size (cache : FileCache) : Nat :=
  cache.entries.length

/-- The entries other than that of a path. -/
def others (cache : FileCache) (path : Path) : List CachedFile :=
  cache.entries.filter fun entry => !(entry.path == path)

/-- Drops the entry for a path, if there is one. -/
def erase (cache : FileCache) (path : Path) : FileCache :=
  match cache.find? path with
  | some entry => { cache with entries := cache.others path, bytes := cache.bytes - entry.size }
  | none => cache

/-- Looks a content up. A current entry becomes the one used last; a stale one is dropped. -/
def get (cache : FileCache) (fs : FileSystem) (path : Path) : FileCache × Option (String × Stamp) :=
  let counts := cache.counts
  match cache.find? path with
  | none => ({ cache with counts := { counts with misses := counts.misses + 1 } }, none)
  | some entry =>
    if entry.stamp.isStale fs path then
      ({ cache.erase path with
        counts :=
          { counts with
            invalidations := counts.invalidations + 1, misses := counts.misses + 1 } }, none)
    else
      ({ cache with
        entries := entry :: cache.others path
        counts := { counts with hits := counts.hits + 1 } }, some (entry.content, entry.stamp))

/-- Whether both limits are kept. -/
def fits (cache : FileCache) : Bool :=
  cache.size ≤ cache.maxEntries && cache.bytes ≤ cache.maxBytes

/-- Drops entries used longest ago, at most `bound` of them, until both limits are kept. -/
def evict : Nat → FileCache → FileCache
  | 0, cache => cache
  | bound + 1, cache =>
    if cache.fits then cache
    else
      match cache.entries.getLast? with
      | none => cache
      | some oldest =>
        evict bound
          { cache with
            entries := cache.entries.dropLast
            bytes := cache.bytes - oldest.size
            counts := { cache.counts with evictions := cache.counts.evictions + 1 } }

/-- Puts a content in as the entry used last, in place of an earlier one for the path, and drops old
entries to keep the limits. A content that exceeds the byte limit on its own is refused. -/
def put (cache : FileCache) (path : Path) (content : String) (stamp : Stamp) :
    FileCache × Except CacheError Unit :=
  let entry : CachedFile := { path, content, stamp }
  if cache.maxBytes < entry.size then
    ({ cache with counts := { cache.counts with rejected := cache.counts.rejected + 1 } },
      .error (.entryTooLarge path entry.size cache.maxBytes))
  else
    let cache := cache.erase path
    let cache :=
      { cache with entries := entry :: cache.entries, bytes := cache.bytes + entry.size }
    (evict cache.size cache, .ok ())

/-- Drops the entry for a path; returns whether there was one. -/
def invalidate (cache : FileCache) (path : Path) : FileCache × Bool :=
  if cache.contains path then
    let counts := { cache.counts with invalidations := cache.counts.invalidations + 1 }
    ({ cache.erase path with counts }, true)
  else (cache, false)

/-- Drops all entries; the counts stay. -/
def clear (cache : FileCache) : FileCache :=
  { cache with entries := [], bytes := 0 }

def stats (cache : FileCache) : FileCacheStats :=
  { cache.counts with entries := cache.size, bytes := cache.bytes }

/-- Reads a file as text, with the stamp it has. -/
def readStamped (fs : FileSystem) (path : Path) : Except CacheError (String × Stamp) :=
  match Stamp.read fs path, fs.readText path with
  | .ok stamp, .ok content => .ok (content, stamp)
  | .error failure, _ => .error (.read path failure)
  | _, .error failure => .error (.read path failure)

/-- The content of a file, from the cache or read and put into it. A content too large for the cache
is handed out all the same. -/
def readThrough (cache : FileCache) (fs : FileSystem) (path : Path) :
    FileCache × Except CacheError String :=
  match cache.get fs path with
  | (cache, some (content, _)) => (cache, .ok content)
  | (cache, none) =>
    match readStamped fs path with
    | .error failure => (cache, .error failure)
    | .ok (content, stamp) => ((cache.put path content stamp).1, .ok content)

end FileCache

end DepAtlas
