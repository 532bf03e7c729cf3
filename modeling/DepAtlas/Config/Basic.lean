import DepAtlas.Layer
import DepAtlas.Path

/-!
Settings of a crawl, in four sections. Every setting may be left out; the functions named after a
setting give the value that is then used.
-/

namespace DepAtlas

/-- Which files the walk yields. -/
structure Config.Scan where
  /-- Directories below a root that are entered; all of them when unset. -/
  maxDepth : Option Nat := none
  /-- Larger files are passed over. -/
  maxFileSize : Option Nat := none
  /-- Globs of paths to skip, relative to the root. -/
  exclude : List String := []
  followSymlinks : Option Bool := none
deriving Repr, DecidableEq, Inhabited

/-- Which layers are extracted and what is derived from them. -/
structure Config.Analysis where
  /-- Names of layers; all of them when empty. -/
  layers : List String := []
  detectCycles : Option Bool := none
  structureIndex : Option Bool := none
deriving Repr, DecidableEq, Inhabited

/-- Use of worker threads. -/
structure Config.Performance where
  parallel : Option Bool := none
  threads : Option Nat := none
  queueCapacity : Option Nat := none
deriving Repr, DecidableEq, Inhabited

/-- Use of the file cache and of the results of earlier runs. -/
structure Config.Cache where
  enabled : Option Bool := none
  maxEntries : Option Nat := none
  maxBytes : Option Nat := none
  incremental : Option Bool := none
  stateFile : Option Path := none
  verifyContentHash : Option Bool := none
  trackMoves : Option Bool := none
  autoSave : Option Bool := none
deriving Repr, Inhabited

/-- All settings. -/
structure Config where
  scan : Config.Scan := {}
  analysis : Config.Analysis := {}
  performance : Config.Performance := {}
  cache : Config.Cache := {}
deriving Repr, Inhabited

namespace Config

def maxThreads : Nat := 16

/-- Largest file that is read unless a limit is set: 100 MiB. -/
def Scan.fileSizeLimit (scan : Scan) : Nat :=
  scan.maxFileSize.getD (100 * 1024 * 1024)

def Scan.followsSymlinks (scan : Scan) : Bool :=
  scan.followSymlinks.getD false

/-- Whether the layer with this name is extracted, whatever the case of its letters. -/
def Analysis.layerEnabled (analysis : Analysis) (name : String) : Bool :=
  analysis.layers.isEmpty ||
    analysis.layers.any fun layer => Layer.foldCase layer == Layer.foldCase name

def Analysis.detectsCycles (analysis : Analysis) : Bool :=
  analysis.detectCycles.getD true

def Analysis.indexesStructures (analysis : Analysis) : Bool :=
  analysis.structureIndex.getD true

def Performance.isParallel (performance : Performance) : Bool :=
  performance.parallel.getD false

def Performance.threadCount (performance : Performance) : Nat :=
  performance.threads.getD 4

/-- Number of files that may wait for a worker. -/
def Performance.queueLimit (performance : Performance) : Nat :=
  performance.queueCapacity.getD 1024

def Cache.isEnabled (cache : Cache) : Bool :=
  cache.enabled.getD true

def Cache.entryLimit (cache : Cache) : Nat :=
  cache.maxEntries.getD 10000

/-- Number of bytes kept in memory: 64 MiB unless set. -/
def Cache.byteLimit (cache : Cache) : Nat :=
  cache.maxBytes.getD (64 * 1024 * 1024)

/-- Whether results of earlier runs are used again. -/
def Cache.isIncremental (cache : Cache) : Bool :=
  cache.incremental.getD false

/-- Whether a file counts as unchanged by its content instead of its stamp. -/
def Cache.verifiesContent (cache : Cache) : Bool :=
  cache.verifyContentHash.getD false

/-- Whether a deleted and a new file of one content count as a move. -/
def Cache.tracksMoves (cache : Cache) : Bool :=
  cache.trackMoves.getD false

/-- Whether results are saved when a run ends. -/
def Cache.savesState (cache : Cache) : Bool :=
  cache.autoSave.getD true

end Config

end DepAtlas
