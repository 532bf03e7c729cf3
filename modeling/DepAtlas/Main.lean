import DepAtlas.CommandLine.Program
import Std.Time

/-!
The outer layer of the program. It takes the part of the disk that a run can see into a value, runs the
program on it, and writes back the files that the run changed.
-/

namespace DepAtlas.Disk

/-- A location as an absolute path. -/
def pathText (location : Location) : String :=
  "/" ++ "/".intercalate location

/-- The location that a path names, seen from a directory. -/
def locationOf (current : Location) (path : Path) : Location :=
  path.segments.foldl (fun location segment =>
    if segment == "" || segment == "." then location
    else if segment == ".." then location.dropLast
    else location ++ [segment]) (if path.isAbsolute then [] else current)

def addNode (fs : FileSystem) (location : Location) (node : Node) : FileSystem :=
  if (fs.nodeAt? location).isSome then fs else { fs with nodes := (location, node) :: fs.nodes }

/-- Takes in the directories that lead to a location, as far as they exist. -/
def takeParents (fs : FileSystem) (location : Location) : IO FileSystem :=
  (List.range location.length).foldlM (fun fs count => do
    let parent := location.take count
    if ← (System.mkFilePath [pathText parent]).isDir then return addNode fs parent .directory
    else return fs) fs

/-- What stands at a location of the disk, without what is below it. -/
def readNode (location : Location) : IO (Option Node) := do
  let path := System.mkFilePath [pathText location]
  try
    let facts ← path.symlinkMetadata
    match facts.type with
    | .dir => return some .directory
    | .file =>
      let content ← IO.FS.readBinFile path
      return some (.file content.toList ⟨facts.modified.sec, facts.modified.nsec.toNat⟩)
    | .symlink =>
      try
        return some (.link ⟨(← IO.FS.realPath path).toString⟩)
      catch _ => return some (.link ⟨"/dev/null/nothing"⟩)
    | .other => return some .device
  catch _ => return none

/-- Takes in what stands at a location and below it. Hidden entries, and what is below directories that
are never walked, are left out; where a link leads is taken in, too. -/
partial def takeTree (fs : FileSystem) (location : Location) : IO FileSystem := do
  match ← readNode location with
  | none => return fs
  | some node =>
    let mut fs := addNode fs location node
    match node with
    | .link target =>
      let goal := locationOf [] target
      if (fs.nodeAt? goal).isSome then return fs else takeTree (← takeParents fs goal) goal
    | .directory =>
      for entry in ← (System.mkFilePath [pathText location]).readDir do
        let inner := location ++ [entry.fileName]
        if entry.fileName.startsWith "." then
          continue
        else if Walk.ignoredDirectories.contains entry.fileName then
          if let some node ← readNode inner then
            fs := addNode fs inner node
        else
          fs ← takeTree fs inner
      return fs
    | _ => return fs

/-- Takes in a whole tree. -/
def takeRoot (fs : FileSystem) (path : Path) : IO FileSystem := do
  let location := locationOf fs.current path
  takeTree (← takeParents fs location) location

/-- Takes in a single entry; a link counts as what it leads to. -/
def takeEntry (fs : FileSystem) (path : Path) : IO FileSystem := do
  let location := locationOf fs.current path
  let fs ← takeParents fs location
  let node ← match ← readNode location with
    | some (.link target) => readNode (locationOf [] target)
    | node => pure node
  return (node.map (addNode fs location)).getD fs

/-- Whether someone else holds a lock on a file. -/
def isHeld (fs : FileSystem) (path : Path) : IO Bool := do
  try
    let handle ← IO.FS.Handle.mk (pathText (locationOf fs.current path)) .readWrite
    return !(← handle.tryLock)
  catch _ => return false

/-- Takes in the state file with its neighbours. -/
def takeState (fs : FileSystem) (path : Path) : IO FileSystem := do
  let lock := SavedState.neighbour path "lock"
  let fs ← takeEntry (← takeEntry fs path) lock
  if ← isHeld fs lock then return fs.lock lock else return fs

/-- Writes back the files that carry the time of the run. -/
def writeBack (fs : FileSystem) (now : Time) : IO Unit := do
  for (location, node) in fs.nodes do
    match node with
    | .file content modified =>
      if modified == now then
        IO.FS.createDirAll (pathText location.dropLast)
        IO.FS.writeBinFile (pathText location) ⟨content.toArray⟩
    | _ => continue

/-- The current directory of the disk, with nothing else taken in. -/
def current : IO FileSystem := do
  let location := locationOf [] ⟨(← IO.currentDir).toString⟩
  let fs ← takeParents { FileSystem.empty with current := location } location
  return addNode fs location .directory

/-- The variables that the program looks at. -/
def environment : IO Environment := do
  let names := ["HOME", "USERPROFILE", "DEPSCAN_CONFIG", "DEPSCAN_SCAN_MAX_DEPTH",
    "DEPSCAN_SCAN_MAX_FILE_SIZE", "DEPSCAN_THREADS", "DEPSCAN_PARALLEL", "DEPSCAN_INCREMENTAL",
    "DEPSCAN_CACHE_MAX_ENTRIES", "DEPSCAN_CACHE_MAX_BYTES", "DEPSCAN_STATE_FILE"]
  names.filterMapM fun name => do
    return (← IO.getEnv name).map fun value => (name, value)

/-- The time of day. -/
def clock : IO Time := do
  let moment ← Std.Time.Timestamp.now
  let nanos := moment.toNanosecondsSinceUnixEpoch.val
  return ⟨nanos / 1000000000, (nanos % 1000000000).toNat⟩

/-- Takes in what the command line names: the trees, and the files with settings. -/
def takeArguments (fs : FileSystem) (env : Environment) (arguments : Arguments) : IO FileSystem := do
  let fs ← arguments.paths.foldlM takeRoot fs
  let settings := (arguments.configRoot fs).join ⟨"depscan.toml"⟩
  (settings :: (arguments.config.toList ++ (Config.userFile? env).toList)).foldlM takeEntry fs

end DepAtlas.Disk

open DepAtlas in
def main (words : List String) : IO UInt32 := do
  let env ← Disk.environment
  let fs ← Disk.current
  let fs ← match Arguments.read env words with
    | .ok arguments => Disk.takeArguments fs env arguments
    | .error _ => pure fs
  let ending ← match Program.prepare fs env words with
    | .error ending => pure ending
    | .ok program => do
      let now ← Disk.clock
      let crawler := program.crawler now
      let fs ← (crawler.stateFile? fs).toList.foldlM Disk.takeState fs
      let fs ← program.arguments.file.toList.foldlM Disk.takeEntry fs
      let started ← IO.monoMsNow
      let (fs, graph) ← IO.lazyPure fun _ => crawler.run fs
      let (fs, ending) := program.finish fs now ((← IO.monoMsNow) - started) graph
      Disk.writeBack fs now
      pure ending
  (← IO.getStdout).putStr ending.output
  (← IO.getStderr).putStr ending.complaint
  return ending.exitCode.toUInt32
