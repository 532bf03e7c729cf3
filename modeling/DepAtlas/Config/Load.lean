import DepAtlas.Config.Toml
import DepAtlas.FileSystem.Basic
import DepAtlas.Text.Utf8
import DepAtlas.Width

/-!
Where settings come from. A setting is taken from the first of these sources that has it: the command
line, the environment, the file of the project, the file of the user.
-/

namespace DepAtlas

/-- Variables of the environment with their values. -/
abbrev Environment := List (String × String)

/-- Settings given on the command line. -/
structure Overrides where
  maxDepth : Option Nat := none
  threads : Option Nat := none
  parallel : Option Bool := none
  incremental : Option Bool := none
  cacheEnabled : Option Bool := none
  stateFile : Option Path := none
  layers : List String := []
  exclude : List String := []
deriving Repr, Inhabited

namespace Environment

/-- Decimal digits, perhaps after a plus sign, of a number of 64 bits. -/
def count? (text : String) : Option Nat :=
  let digits :=
    match text.toList with
    | '+' :: digits => digits
    | digits => digits
  if digits.isEmpty || !digits.all Char.isDigit then none
  else
    let value := digits.foldl (fun value c => value * 10 + (c.toNat - 48)) 0
    if value < limit64 then some value else none

def flag? (text : String) : Option Bool :=
  if text == "true" then some true else if text == "false" then some false else none

/-- The value of a variable, if it is set and can be read. -/
def value? {α : Type} (env : Environment) (name : String) (decode : String → Option α) : Option α :=
  (env.lookup name).bind decode

end Environment

namespace Config

/-- The first list unless it is empty. -/
def firstList (first second : List String) : List String :=
  if first.isEmpty then second else first

/-- The settings of `upper`, and below them those of `lower`. -/
def merge (lower upper : Config) : Config where
  scan := {
    maxDepth := upper.scan.maxDepth <|> lower.scan.maxDepth
    maxFileSize := upper.scan.maxFileSize <|> lower.scan.maxFileSize
    exclude := firstList upper.scan.exclude lower.scan.exclude
    followSymlinks := upper.scan.followSymlinks <|> lower.scan.followSymlinks }
  analysis := {
    layers := firstList upper.analysis.layers lower.analysis.layers
    detectCycles := upper.analysis.detectCycles <|> lower.analysis.detectCycles
    structureIndex := upper.analysis.structureIndex <|> lower.analysis.structureIndex }
  performance := {
    parallel := upper.performance.parallel <|> lower.performance.parallel
    threads := upper.performance.threads <|> lower.performance.threads
    queueCapacity := upper.performance.queueCapacity <|> lower.performance.queueCapacity }
  cache := {
    enabled := upper.cache.enabled <|> lower.cache.enabled
    maxEntries := upper.cache.maxEntries <|> lower.cache.maxEntries
    maxBytes := upper.cache.maxBytes <|> lower.cache.maxBytes
    incremental := upper.cache.incremental <|> lower.cache.incremental
    stateFile := upper.cache.stateFile <|> lower.cache.stateFile
    verifyContentHash := upper.cache.verifyContentHash <|> lower.cache.verifyContentHash
    trackMoves := upper.cache.trackMoves <|> lower.cache.trackMoves
    autoSave := upper.cache.autoSave <|> lower.cache.autoSave }

/-- The settings that variables give; a value that cannot be read counts as not set. -/
def ofEnvironment (env : Environment) : Config where
  scan := {
    maxDepth := env.value? "DEPSCAN_SCAN_MAX_DEPTH" Environment.count?
    maxFileSize := env.value? "DEPSCAN_SCAN_MAX_FILE_SIZE" Environment.count? }
  performance := {
    threads := env.value? "DEPSCAN_THREADS" Environment.count?
    parallel := env.value? "DEPSCAN_PARALLEL" Environment.flag? }
  cache := {
    incremental := env.value? "DEPSCAN_INCREMENTAL" Environment.flag?
    maxEntries := env.value? "DEPSCAN_CACHE_MAX_ENTRIES" Environment.count?
    maxBytes := env.value? "DEPSCAN_CACHE_MAX_BYTES" Environment.count?
    stateFile := env.value? "DEPSCAN_STATE_FILE" fun text => some ⟨text⟩ }

/-- Puts the settings of the command line above others. Its globs are added to those already set. -/
def override (config : Config) (overrides : Overrides) : Config where
  scan := {
    config.scan with
    maxDepth := overrides.maxDepth <|> config.scan.maxDepth
    exclude := config.scan.exclude ++ overrides.exclude }
  analysis := {
    config.analysis with
    layers := firstList overrides.layers config.analysis.layers }
  performance := {
    config.performance with
    threads := overrides.threads <|> config.performance.threads
    parallel := overrides.parallel <|> config.performance.parallel }
  cache := {
    config.cache with
    incremental := overrides.incremental <|> config.cache.incremental
    enabled := overrides.cacheEnabled <|> config.cache.enabled
    stateFile := overrides.stateFile <|> config.cache.stateFile }

/-- A limit that must not be zero. -/
def requirePositive (field : String) (value : Option Nat) : Except ConfigError Unit :=
  if value == some 0 then .error (.validation field "must be greater than 0") else .ok ()

/-- Every name must be that of a layer. -/
def requireLayers : List String → Except ConfigError Unit
  | [] => .ok ()
  | name :: rest =>
    if (Layer.ofName? name).isSome then requireLayers rest
    else .error (.invalidValue "analysis.layers"
      s!"unknown layer '{name}', expected one of [\"module\", \"struct\", \"method\"]")

/-- Checks the settings; the first fault is reported. -/
def validate (config : Config) : Except ConfigError Unit := do
  if config.performance.threads.any fun threads => threads == 0 || maxThreads < threads then
    throw (.validation "performance.threads" s!"must be between 1 and {maxThreads}")
  requirePositive "performance.queue_capacity" config.performance.queueCapacity
  requirePositive "cache.max_entries" config.cache.maxEntries
  requirePositive "cache.max_bytes" config.cache.maxBytes
  requirePositive "scan.max_file_size" config.scan.maxFileSize
  requireLayers config.analysis.layers

/-- The settings of a file. A file that cannot be read as text counts as missing. -/
def ofFile (fs : FileSystem) (path : Path) : Except ConfigError Config :=
  match (fs.read path).toOption.bind Text.Utf8.decode? with
  | some text => ofText path.text (String.ofList text)
  | none => .error (.fileNotFound path.text)

/-- The file with the settings of the user. -/
def userFile? (env : Environment) : Option Path :=
  (env.lookup "HOME" <|> env.lookup "USERPROFILE").map fun home =>
    ((⟨home⟩ : Path).join ⟨".depscan"⟩).join ⟨"config.toml"⟩

/-- The settings of the user. A file that is missing or cannot be read sets nothing; one that does not
hold settings is an error. -/
def userSettings (fs : FileSystem) (env : Environment) : Except ConfigError Config :=
  match userFile? env with
  | none => .ok {}
  | some path =>
    match ofFile fs path with
    | .ok config => .ok config
    | .error (.parse source reason) => .error (.parse source reason)
    | .error _ => .ok {}

/-- The settings of the project below a root, if it has any. -/
def projectSettings (fs : FileSystem) (root : Path) : Except ConfigError Config :=
  let path := root.join ⟨"depscan.toml"⟩
  if fs.exists? path then ofFile fs path else .ok {}

/-- Puts environment and command line above the settings of files, and checks the result. -/
def finish (config : Config) (env : Environment) (overrides : Overrides) :
    Except ConfigError Config := do
  let config := (merge config (ofEnvironment env)).override overrides
  config.validate
  return config

def load (fs : FileSystem) (env : Environment) (root : Path) (overrides : Overrides) :
    Except ConfigError Config := do
  let user ← userSettings fs env
  let project ← projectSettings fs root
  finish (merge user project) env overrides

/-- The settings of one file instead of those of user and project. -/
def loadFile (fs : FileSystem) (env : Environment) (path : Path) (overrides : Overrides) :
    Except ConfigError Config := do
  let config ← ofFile fs path
  finish config env overrides

end Config

end DepAtlas
