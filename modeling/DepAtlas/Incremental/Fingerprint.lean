import DepAtlas.Assoc
import DepAtlas.FileSystem.Stamp

/-!
What is remembered of a file between analyses, and how a file is found to have changed.
-/

namespace DepAtlas

/-- How a file compares with what is remembered of it. -/
inductive FileState
  | new
  | modified
  | unchanged
  | deleted
  | moved
deriving Repr, DecidableEq, Inhabited

namespace FileState

def all : List FileState := [.new, .modified, .unchanged, .deleted, .moved]

def name : FileState → String
  | new => "new"
  | modified => "modified"
  | unchanged => "unchanged"
  | deleted => "deleted"
  | moved => "moved"

def ofName? (name : String) : Option FileState :=
  all.find? fun state => state.name == name

end FileState

/-- What is remembered of a file. -/
structure Fingerprint where
  path : Path
  /-- The stamp of the file when it was last read. -/
  stamp : Stamp
  /-- Digest of the content at the last analysis. -/
  contentHash : UInt64
  /-- Digest of the dependencies found then. -/
  dependencyHash : UInt64
  state : FileState
  /-- Seconds since the epoch at the last analysis. -/
  lastAnalyzed : Nat
  /-- Where the file was before it was moved. -/
  movedFrom : Option Path := none
deriving Repr, Inhabited

/-- The fingerprints of tracked files under their paths. -/
abbrev FingerprintStore := Assoc Path Fingerprint

namespace FingerprintStore

/-- The store of these fingerprints; of several for one path the last one counts. -/
def ofList (fingerprints : List Fingerprint) : FingerprintStore :=
  fingerprints.foldl (fun store fingerprint => Assoc.put fingerprint.path fingerprint store) []

/-- How a file compares with its fingerprint, told by its stamp. -/
def stateOf (store : FingerprintStore) (fs : FileSystem) (path : Path) : FileState :=
  match store.get? path with
  | none => .new
  | some known =>
    match Stamp.read fs path with
    | .error _ => .deleted
    | .ok stamp => if stamp == known.stamp then .unchanged else .modified

/-- How a content compares with the fingerprint of a file. -/
def stateByHash (store : FingerprintStore) (path : Path) (contentHash : UInt64) : FileState :=
  match store.get? path with
  | none => .new
  | some known => if known.contentHash == contentHash then .unchanged else .modified

def track (store : FingerprintStore) (fingerprint : Fingerprint) : FingerprintStore :=
  store.put fingerprint.path fingerprint

/-- Changes the fingerprint of a path, if there is one. -/
def modify (store : FingerprintStore) (path : Path) (change : Fingerprint → Fingerprint) :
    FingerprintStore :=
  match store.get? path with
  | some known => store.put path (change known)
  | none => store

/-- Gives the fingerprint of a path a new stamp and state. -/
def touch (store : FingerprintStore) (path : Path) (stamp : Stamp) (state : FileState) :
    FingerprintStore :=
  store.modify path fun known => { known with stamp, state }

def paths (store : FingerprintStore) : List Path :=
  sortByPath id (Assoc.keys store)

/-- The fingerprints in the order of their paths. -/
def fingerprints (store : FingerprintStore) : List Fingerprint :=
  sortByPath (·.path) (store.map (·.2))

end FingerprintStore

end DepAtlas
