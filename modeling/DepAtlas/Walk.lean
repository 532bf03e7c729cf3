import DepAtlas.Cancellation
import DepAtlas.Config.Basic
import DepAtlas.Error
import DepAtlas.FileSystem.Basic
import DepAtlas.Glob

/-!
The walk that finds the files of a crawl. Directories are walked depth first and in path order. Hidden
entries, directories of dependencies and build output, and entries whose path below the root is excluded
are left out. Symbolic links are passed over or followed; a directory is entered through links at most
once.
-/

namespace DepAtlas

/-- What a walk yields. -/
structure ScanOptions where
  /-- Directories below a root that are entered; all of them when unset. -/
  maxDepth : Option Nat := none
  maxFileSize : Nat
  exclude : List String := []
  followSymlinks : Bool := false
deriving Repr

namespace ScanOptions

/-- The options that the settings of the walk ask for. -/
def ofConfig (scan : Config.Scan) : ScanOptions where
  maxDepth := scan.maxDepth
  maxFileSize := scan.fileSizeLimit
  exclude := scan.exclude
  followSymlinks := scan.followsSymlinks

end ScanOptions

/-- The files that a walk found, and what it left out. -/
structure WalkOutput where
  files : List Path := []
  /-- Number of excluded entries. -/
  excluded : Nat := 0
  /-- Number of files above the size limit. -/
  tooLarge : Nat := 0
  /-- Entries that could not be read. -/
  errors : List ScanError := []

/-- The output of a walk so far, and the directories entered through links or as roots. -/
structure WalkState where
  output : WalkOutput := {}
  visited : List Location := []

namespace Walk

/-- Directories that are never entered. -/
def ignoredDirectories : List String := [
  "node_modules", "bower_components", "target", "vendor", "__pycache__", "site-packages"]

/-- What stays the same during a walk. -/
structure Context where
  fs : FileSystem
  options : ScanOptions
  /-- Whether a path below a root is excluded. -/
  excludes : Path → Bool
  token : CancellationToken := {}

/-- Yields a file unless it is too large. -/
def considerFile (context : Context) (path : Path) (size : Nat) (state : WalkState) : WalkState :=
  let output := state.output
  if context.options.maxFileSize < size then
    { state with output := { output with tooLarge := output.tooLarge + 1 } }
  else { state with output := { output with files := output.files ++ [path] } }

/-- Records an entry that could not be read. -/
def recordError (state : WalkState) (path : Path) (failure : IoFailure) : WalkState :=
  { state with
    output := { state.output with errors := state.output.errors ++ [.io path failure] } }

def isLink (context : Context) (path : Path) : Bool :=
  (context.fs.linkMetadata path).toOption.any Node.isLink

/-- Notes that a directory is entered through a link; `none` if it was entered before. -/
def enterLink? (context : Context) (path : Path) (state : WalkState) : Option WalkState :=
  match context.fs.canonical path with
  | .error _ => none
  | .ok location =>
    if state.visited.contains location then none
    else some { state with visited := location :: state.visited }

/-- The entries of a directory in path order. -/
def entriesOf (fs : FileSystem) (directory : Path) : Except IoFailure (List Path) :=
  (fs.readDirectory directory).map fun names =>
    sortByPath id (names.map fun name => directory.join ⟨name⟩)

/-- Whether a directory at this depth below the root, with this name, is entered. -/
def descends (context : Context) (name : String) (depth : Nat) : Bool :=
  !ignoredDirectories.contains name && !context.options.maxDepth.any (· ≤ depth)

/-- Visits an entry; `descend` walks a directory. -/
def visitEntry (context : Context) (root : Path) (depth : Nat)
    (descend : Path → WalkState → Except ScanError WalkState) (path : Path) (state : WalkState) :
    Except ScanError WalkState :=
  if context.token.isCancelled then .error .cancelled
  else
    let name := path.fileName?.getD ""
    if name.startsWith "." then .ok state
    else if context.excludes ((path.relativeTo? root).getD path) then
      .ok { state with output := { state.output with excluded := state.output.excluded + 1 } }
    else
      let link := isLink context path
      if link && !context.options.followSymlinks then .ok state
      else
        match context.fs.metadata path with
        | .error failure => .ok (recordError state path failure)
        | .ok .directory =>
          if !descends context name depth then .ok state
          else if link then
            match enterLink? context path state with
            | some state => descend path state
            | none => .ok state
          else descend path state
        | .ok (.file content _) => .ok (considerFile context path content.length state)
        | .ok _ => .ok state

def visitEntries (context : Context) (root : Path) (depth : Nat)
    (descend : Path → WalkState → Except ScanError WalkState) :
    List Path → WalkState → Except ScanError WalkState
  | [], state => .ok state
  | path :: rest, state => do
    let state ← visitEntry context root depth descend path state
    visitEntries context root depth descend rest state

/-- Walks a directory at some depth below its root; at most `levels` directories are entered one inside
the other. -/
def walkDirectory (context : Context) (root : Path) :
    Nat → Nat → Path → WalkState → Except ScanError WalkState
  | 0, _, _, state => .ok state
  | levels + 1, depth, directory, state =>
    match entriesOf context.fs directory with
    | .error failure => .ok (recordError state directory failure)
    | .ok entries =>
      visitEntries context root depth (walkDirectory context root levels (depth + 1)) entries state

/-- Number of directories that are entered at most one inside the other: between two links, which lead
to different directories, the way goes down the tree. -/
def maxLevels (fs : FileSystem) : Nat :=
  (fs.nodes.length + 1) * (fs.nodes.length + 1)

/-- Notes a directory that is walked as a root. -/
def enterRoot (context : Context) (root : Path) (state : WalkState) : WalkState :=
  match context.options.followSymlinks, context.fs.canonical root with
  | true, .ok location =>
    if state.visited.contains location then state
    else { state with visited := location :: state.visited }
  | _, _ => state

/-- Walks a root. A file is yielded as it is; anything else must be a directory that can be read. -/
def walkRoot (context : Context) (state : WalkState) (root : Path) : Except ScanError WalkState :=
  match context.fs.metadata root with
  | .error _ => .error (.invalidRoot root)
  | .ok (.file content _) => .ok (considerFile context root content.length state)
  | .ok _ =>
    match entriesOf context.fs root with
    | .error failure => .error (.io root failure)
    | .ok _ => walkDirectory context root (maxLevels context.fs) 0 root (enterRoot context root state)

def walkRoots (context : Context) : List Path → WalkState → Except ScanError WalkState
  | [], state => .ok state
  | root :: rest, state => do
    let state ← walkRoot context state root
    walkRoots context rest state

/-- Reads globs; the first one that is faulty is reported. -/
def readGlobs : List String → Except ScanError (List Glob)
  | [] => .ok []
  | pattern :: rest =>
    match Glob.parse? pattern with
    | none => .error (.invalidExclude pattern "not a valid glob")
    | some glob => (readGlobs rest).map (glob :: ·)

/-- Reads the globs of what is excluded. Once all of them can be read, they are refused together if one
is nested too deep. -/
def readExcludes (patterns : List String) : Except ScanError (List Glob) := do
  let globs ← readGlobs patterns
  if globs.any Glob.isTooDeep then
    .error (.invalidExclude (",".intercalate patterns) "nested too deep")
  else
    .ok globs

end Walk

def walk (fs : FileSystem) (roots : List Path) (options : ScanOptions) (token : CancellationToken) :
    Except ScanError WalkOutput := do
  let globs ← Walk.readExcludes options.exclude
  let context : Walk.Context := {
    fs, options, token
    excludes := fun path => globs.any (·.accepts path.text) }
  let state ← Walk.walkRoots context roots {}
  return state.output

end DepAtlas
