import DepAtlas.Assoc
import DepAtlas.Digest.Words
import DepAtlas.IoFailure
import DepAtlas.Path

/-!
A file system as a value. Every node is stored under the list of names that leads to it from the root;
relative paths start at the current directory. Symbolic links are followed, at most forty in one
look-up. Names and paths have a greatest number of bytes.
-/

namespace DepAtlas

/-- The names that lead from the root to a node. -/
abbrev Location := List String

/-- A point in time: whole seconds since the epoch, and nanoseconds after them. -/
structure Time where
  seconds : Int := 0
  nanos : Nat := 0
deriving Repr, DecidableEq, Inhabited

/-- What stands at a location. -/
inductive Node
  | file (content : Bytes) (modified : Time)
  | directory
  | link (target : Path)
  /-- Neither a file nor a directory; reads as empty and swallows what is written. -/
  | device
deriving Repr, Inhabited

namespace Node

def isDirectory : Node → Bool
  | directory => true
  | _ => false

def isFile : Node → Bool
  | file .. => true
  | _ => false

def isLink : Node → Bool
  | link _ => true
  | _ => false

/-- Number of bytes, as far as a node has content. -/
def size : Node → Nat
  | file content _ => content.length
  | _ => 0

def modified : Node → Time
  | file _ modified => modified
  | _ => {}

end Node

/-- A file system with its current directory. -/
structure FileSystem where
  nodes : Assoc Location Node
  current : Location
  /-- Files on which someone else holds a lock. -/
  locks : List Location := []
deriving Inhabited

namespace FileSystem

/-- An empty current directory, and a device that swallows everything. -/
def empty : FileSystem where
  nodes := [
    ([], .directory), (["dev"], .directory), (["dev", "null"], .device), (["work"], .directory)]
  current := ["work"]

def nodeAt? (fs : FileSystem) (location : Location) : Option Node :=
  fs.nodes.get? location

/-- Most bytes that a name may have. -/
def longestName : Nat := 255

/-- Most bytes that a path may have. -/
def longestPath : Nat := 4095

/-- Most links that one look-up follows. -/
def maxLinks : Nat := 40

def lookup (fs : FileSystem) (parent : Location) (name : String) : Except IoFailure (Option Node) :=
  if longestName < name.utf8ByteSize then .error .nameTooLong
  else .ok (fs.nodeAt? (parent ++ [name]))

/-- Where a path leads before its last name is looked up. -/
inductive Goal
  /-- A directory: the path ends in no name. -/
  | directory (location : Location)
  /-- A name in a directory; whether separators stand behind it. -/
  | entry (parent : Location) (name : String) (slashed : Bool)
deriving Repr, DecidableEq, Inhabited

/-- Whether a link at the end of a path is followed, given whether separators stand behind it. -/
abbrev LinkRule := Bool → Bool

namespace LinkRule

/-- The link is followed. -/
def follow : LinkRule := fun _ => true

/-- The link stands for itself. -/
def keep : LinkRule := fun _ => false

/-- Only separators behind the link make it stand for where it leads. -/
def followSlashed : LinkRule := fun slashed => slashed

/-- The link is followed unless separators stand behind it. -/
def followBare : LinkRule := fun slashed => !slashed

end LinkRule

/-- Follows path segments from a directory. A link on the way, or at the end if the rule says so, is
handed to `again` with the segments that its target and the rest of the path give. -/
def walkSegments (fs : FileSystem) (rule : LinkRule)
    (again : Location → List String → Except IoFailure Goal) :
    Location → List String → Except IoFailure Goal
  | location, [] => .ok (.directory location)
  | location, segment :: rest =>
    let slashed := !rest.isEmpty
    let enter := fun (target : Path) =>
      again (if target.isAbsolute then [] else location) (target.segments ++ rest)
    if segment == "" || segment == "." then walkSegments fs rule again location rest
    else if segment == ".." then walkSegments fs rule again location.dropLast rest
    else if rest.all String.isEmpty then
      match fs.nodeAt? (location ++ [segment]) with
      | some (.link target) =>
        if rule slashed then enter target else .ok (.entry location segment slashed)
      | _ => .ok (.entry location segment slashed)
    else
      match fs.lookup location segment with
      | .error failure => .error failure
      | .ok none => .error .notFound
      | .ok (some .directory) => walkSegments fs rule again (location ++ [segment]) rest
      | .ok (some (.link target)) => enter target
      | .ok (some _) => .error .notDirectory

/-- Follows path segments through at most the given number of links. -/
def walkLinks (fs : FileSystem) (rule : LinkRule) :
    Nat → Location → List String → Except IoFailure Goal
  | 0 => fs.walkSegments rule fun _ _ => .error .linkLoop
  | links + 1 => fs.walkSegments rule (fs.walkLinks rule links)

/-- Finds out where a path leads. -/
def locate (fs : FileSystem) (rule : LinkRule) (path : Path) : Except IoFailure Goal :=
  if path.text.toList.contains '\x00' then .error .nulInPath
  else if path.isEmpty then .error .notFound
  else if longestPath < path.text.utf8ByteSize then .error .nameTooLong
  else fs.walkLinks rule maxLinks (if path.isAbsolute then [] else fs.current) path.segments

/-- The node at a path and its location. Only a directory may have separators behind its name. -/
def find (fs : FileSystem) (rule : LinkRule) (path : Path) : Except IoFailure (Location × Node) :=
  match fs.locate rule path with
  | .error failure => .error failure
  | .ok (.directory location) => .ok (location, .directory)
  | .ok (.entry parent name slashed) =>
    match fs.lookup parent name with
    | .error failure => .error failure
    | .ok none => .error .notFound
    | .ok (some node) =>
      if slashed && !node.isDirectory then .error .notDirectory
      else .ok (parent ++ [name], node)

/-- The node at a path and its location, with links followed. -/
def resolve (fs : FileSystem) (path : Path) : Except IoFailure (Location × Node) :=
  fs.find .follow path

/-- The node at a path, with links followed. -/
def metadata (fs : FileSystem) (path : Path) : Except IoFailure Node :=
  (fs.resolve path).map (·.2)

/-- The node at a path, where a link at its end stands for itself. -/
def linkMetadata (fs : FileSystem) (path : Path) : Except IoFailure Node :=
  (fs.find .followSlashed path).map (·.2)

/-- The location of what a path leads to. -/
def canonical (fs : FileSystem) (path : Path) : Except IoFailure Location :=
  (fs.resolve path).map (·.1)

def isDirectory (fs : FileSystem) (path : Path) : Bool :=
  (fs.metadata path).toOption.any Node.isDirectory

def exists? (fs : FileSystem) (path : Path) : Bool :=
  (fs.metadata path).toOption.isSome

def read (fs : FileSystem) (path : Path) : Except IoFailure Bytes :=
  match fs.metadata path with
  | .ok (.file content _) => .ok content
  | .ok .directory => .error .isDirectory
  | .ok _ => .ok []
  | .error failure => .error failure

/-- The name of a location directly below another one. -/
def nameBelow? (parent location : Location) : Option String :=
  if location.dropLast == parent then location.getLast? else none

/-- The names in the directory at a location. -/
def namesAt (fs : FileSystem) (location : Location) : List String :=
  fs.nodes.filterMap fun entry => nameBelow? location entry.1

/-- The names in the directory that a path leads to. -/
def readDirectory (fs : FileSystem) (path : Path) : Except IoFailure (List String) :=
  match fs.resolve path with
  | .ok (location, .directory) => .ok (fs.namesAt location)
  | .ok _ => .error .notDirectory
  | .error failure => .error failure

end FileSystem

end DepAtlas
