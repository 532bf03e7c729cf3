import DepAtlas.FileSystem.Basic

/-!
Changes to a file system: writing, linking, renaming and removing. What an operation does with a link or
with separators at the end of a path is part of it: creating a file follows a link and refuses separators,
the others take the last name as it stands.
-/

namespace DepAtlas

namespace FileSystem

def put (fs : FileSystem) (location : Location) (node : Node) : FileSystem :=
  { fs with nodes := fs.nodes.put location node }

/-- Drops what stands at a location and below it. -/
def drop (fs : FileSystem) (location : Location) : FileSystem :=
  { fs with nodes := fs.nodes.filter fun entry => !location.isPrefixOf entry.1 }

/-- The location of the file that a path names, and the node if it is there already. -/
def openFile (fs : FileSystem) (path : Path) : Except IoFailure (Location × Option Node) :=
  match fs.locate .followBare path with
  | .error failure => .error failure
  | .ok (.directory _) => .error .isDirectory
  | .ok (.entry parent name slashed) =>
    if slashed then .error .isDirectory
    else
      match fs.lookup parent name with
      | .error failure => .error failure
      | .ok (some .directory) => .error .isDirectory
      | .ok node => .ok (parent ++ [name], node)

/-- Replaces the content of a file, or creates it in an existing directory. -/
def write (fs : FileSystem) (path : Path) (content : Bytes) (time : Time) :
    Except IoFailure FileSystem :=
  match fs.openFile path with
  | .error failure => .error failure
  | .ok (_, some .device) => .ok fs
  | .ok (location, _) => .ok (fs.put location (.file content time))

/-- Whether what is written to a path comes to rest; a device has nothing to keep it in. -/
def flush (fs : FileSystem) (path : Path) : Except IoFailure Unit :=
  match fs.metadata path with
  | .error failure => .error failure
  | .ok .device => .error .invalidArgument
  | .ok _ => .ok ()

/-- Makes sure that a file is there, without changing its content. -/
def ensureFile (fs : FileSystem) (path : Path) (time : Time) : Except IoFailure FileSystem :=
  match fs.openFile path with
  | .error failure => .error failure
  | .ok (_, some _) => .ok fs
  | .ok (location, none) => .ok (fs.put location (.file [] time))

/-- Whether someone else holds a lock on the file that a path leads to. -/
def isLocked (fs : FileSystem) (path : Path) : Bool :=
  (fs.canonical path).toOption.any fs.locks.contains

/-- Lets someone else hold a lock on the file that a path leads to. -/
def lock (fs : FileSystem) (path : Path) : FileSystem :=
  match fs.canonical path with
  | .ok location => { fs with locks := location :: fs.locks }
  | .error _ => fs

def createDirectory (fs : FileSystem) (path : Path) : Except IoFailure FileSystem :=
  match fs.locate .keep path with
  | .error failure => .error failure
  | .ok (.directory _) => .error .alreadyExists
  | .ok (.entry parent name _) =>
    match fs.lookup parent name with
    | .error failure => .error failure
    | .ok (some _) => .error .alreadyExists
    | .ok none => .ok (fs.put (parent ++ [name]) .directory)

/-- A path and the directories that lead to it, the innermost first. The root and the current directory,
which are always there, are left out. -/
def ancestors (path : Path) : List Path :=
  go (path.text.length + 1) path
where
  go : Nat → Path → List Path
    | 0, _ => []
    | fuel + 1, path =>
      match path.parent? with
      | some parent => path :: go fuel parent
      | none => []

/-- Creates a directory after those that lead to it, which are listed with the innermost first. Those
that could be created stay also when one further in cannot. -/
def createInner (fs : FileSystem) : List Path → FileSystem × Except IoFailure Unit
  | [] => (fs, .ok ())
  | path :: outer =>
    match fs.createDirectory path with
    | .ok created => (created, .ok ())
    | .error failure =>
      if failure == .notFound then
        match createInner fs outer with
        | (fs, .error failure) => (fs, .error failure)
        | (fs, .ok _) =>
          match fs.createDirectory path with
          | .ok created => (created, .ok ())
          | .error failure => (fs, settled fs path failure)
      else (fs, settled fs path failure)
where
  /-- It is as well if the directory is there already. -/
  settled (fs : FileSystem) (path : Path) (failure : IoFailure) : Except IoFailure Unit :=
    if failure == .alreadyExists && fs.isDirectory path then .ok () else .error failure

/-- Creates a directory and all directories that lead to it. -/
def createDirectories (fs : FileSystem) (path : Path) : FileSystem × Except IoFailure Unit :=
  fs.createInner (ancestors path)

/-- Creates the directories that lead to a path. -/
def createParents (fs : FileSystem) (path : Path) : FileSystem × Except IoFailure Unit :=
  match path.parent? with
  | some parent => fs.createDirectories parent
  | none => (fs, .ok ())

/-- Puts the node at one location, with what is below it, in place of what stands at another one. -/
def move (fs : FileSystem) (source goal : Location) : FileSystem :=
  let cleared := fs.drop goal
  { cleared with
    nodes := cleared.nodes.map fun (location, node) =>
      if source.isPrefixOf location then (goal ++ location.drop source.length, node)
      else (location, node) }

/-- Why a node may not take the place of another one, if it may not. A file does not replace a directory,
nor a directory a file, and a directory that is replaced must be empty. -/
def hindrance? (fs : FileSystem) (source : Location) (node : Node) (goal : Location) :
    Option Node → Option IoFailure
  | none => if source.isPrefixOf goal then some .invalidArgument else none
  | some occupant =>
    if source == goal then none
    else if source.isPrefixOf goal then some .invalidArgument
    else if goal.isPrefixOf source then some .notEmpty
    else if node.isDirectory && !occupant.isDirectory then some .notDirectory
    else if !node.isDirectory && occupant.isDirectory then some .isDirectory
    else if occupant.isDirectory && !(fs.namesAt goal).isEmpty then some .notEmpty
    else none

/-- Moves a node, with what is below it, in place of what stands at the new path. Both paths must end in
a name, and only a directory may have separators behind it. -/
def rename (fs : FileSystem) (path target : Path) : Except IoFailure FileSystem := do
  match ← fs.locate .keep path, ← fs.locate .keep target with
  | .entry parent name slashed, .entry goalParent goalName goalSlashed =>
    match ← fs.lookup parent name with
    | none => .error .notFound
    | some node =>
      let occupant ← fs.lookup goalParent goalName
      let source := parent ++ [name]
      let goal := goalParent ++ [goalName]
      if !node.isDirectory && (slashed || goalSlashed) then .error .notDirectory
      else
        match fs.hindrance? source node goal occupant with
        | some failure => .error failure
        | none => if source == goal then return fs else return fs.move source goal
  | _, _ => .error .busy

/-- Removes what a path names, with everything below it. -/
def remove (fs : FileSystem) (path : Path) : Except IoFailure FileSystem :=
  (fs.find .keep path).map fun (location, _) => fs.drop location

def symlink (fs : FileSystem) (path target : Path) : Except IoFailure FileSystem :=
  match fs.locate .keep path with
  | .error failure => .error failure
  | .ok (.directory _) => .error .alreadyExists
  | .ok (.entry parent name slashed) =>
    match fs.lookup parent name with
    | .error failure => .error failure
    | .ok (some _) => .error .alreadyExists
    | .ok none => if slashed then .error .notFound else .ok (fs.put (parent ++ [name]) (.link target))

/-- Sets the time of a file's last change. -/
def touch (fs : FileSystem) (path : Path) (time : Time) : Except IoFailure FileSystem := do
  match ← fs.resolve path with
  | (location, .file content _) => return fs.put location (.file content time)
  | _ => return fs

end FileSystem

end DepAtlas
