import DepAtlas.FileSystem.Basic
import DepAtlas.Text.Utf8

/-!
Stamps of files, by which a change is told without reading the content, and reading files as text.
-/

namespace DepAtlas

/-- Size and time of last change of a file. -/
structure Stamp where
  size : Nat := 0
  seconds : Int := 0
  nanos : Nat := 0
deriving Repr, DecidableEq, Inhabited

namespace Stamp

/-- The stamp of a node. Times before the epoch count as the epoch. -/
def ofNode (node : Node) : Stamp :=
  let time := node.modified
  if time.seconds < 0 then { size := node.size }
  else { size := node.size, seconds := time.seconds, nanos := time.nanos }

/-- The stamp of the file that a path leads to. -/
def read (fs : FileSystem) (path : Path) : Except IoFailure Stamp :=
  (fs.metadata path).map ofNode

/-- Whether the file is gone or no longer has the stamp. -/
def isStale (stamp : Stamp) (fs : FileSystem) (path : Path) : Bool :=
  match read fs path with
  | .ok now => now != stamp
  | .error _ => true

end Stamp

namespace FileSystem

/-- The text of a file, with replacements for bytes that belong to no character. -/
def readText (fs : FileSystem) (path : Path) : Except IoFailure String :=
  (fs.read path).map fun bytes => String.ofList (Text.Utf8.decodeLossy bytes)

end FileSystem

end DepAtlas
