import DepAtlas.Config.Basic
import DepAtlas.Error
import DepAtlas.Toml.Parser
import DepAtlas.Toml.Printer

/-!
Settings as TOML. A section is a table, whose unknown keys are passed over, or an array of its settings
in order, of which the last ones may be missing and surplus ones are passed over. A date in place of a
section sets nothing.
-/

namespace DepAtlas.Config

/-- The settings of a section under their names. -/
def settings? (names : List String) : Option Toml → Option Toml.Entries
  | none => some []
  | some (.table _ entries) => some entries
  | some (.array items) => some (names.zip items)
  | some (.datetime _) => some []
  | some _ => none

/-- A setting that may be left out. -/
def setting? {α : Type} (entries : Toml.Entries) (name : String) (decode : Toml → Option α) :
    Option (Option α) :=
  match entries.lookup name with
  | none => some none
  | some value => (decode value).map some

/-- A list of strings; empty when it is left out. -/
def settingList? (entries : Toml.Entries) (name : String) : Option (List String) :=
  match entries.lookup name with
  | none => some []
  | some (.array items) => items.mapM fun
    | .string value => some value
    | _ => none
  | some _ => none

/-- A whole number that is not negative. -/
def count? : Toml → Option Nat
  | .integer value => if 0 ≤ value then some value.toNat else none
  | _ => none

def flag? : Toml → Option Bool
  | .boolean value => some value
  | _ => none

def path? : Toml → Option Path
  | .string value => some ⟨value⟩
  | _ => none

def Scan.names : List String := ["max_depth", "max_file_size", "exclude", "follow_symlinks"]

def Analysis.names : List String := ["layers", "detect_cycles", "structure_index"]

def Performance.names : List String := ["parallel", "threads", "queue_capacity"]

def Cache.names : List String := [
  "enabled", "max_entries", "max_bytes", "incremental", "state_file", "verify_content_hash",
  "track_moves", "auto_save"]

def Scan.ofToml? (value : Option Toml) : Option Scan := do
  let entries ← settings? names value
  return {
    maxDepth := ← setting? entries "max_depth" count?
    maxFileSize := ← setting? entries "max_file_size" count?
    exclude := ← settingList? entries "exclude"
    followSymlinks := ← setting? entries "follow_symlinks" flag? }

def Analysis.ofToml? (value : Option Toml) : Option Analysis := do
  let entries ← settings? names value
  return {
    layers := ← settingList? entries "layers"
    detectCycles := ← setting? entries "detect_cycles" flag?
    structureIndex := ← setting? entries "structure_index" flag? }

def Performance.ofToml? (value : Option Toml) : Option Performance := do
  let entries ← settings? names value
  return {
    parallel := ← setting? entries "parallel" flag?
    threads := ← setting? entries "threads" count?
    queueCapacity := ← setting? entries "queue_capacity" count? }

def Cache.ofToml? (value : Option Toml) : Option Cache := do
  let entries ← settings? names value
  return {
    enabled := ← setting? entries "enabled" flag?
    maxEntries := ← setting? entries "max_entries" count?
    maxBytes := ← setting? entries "max_bytes" count?
    incremental := ← setting? entries "incremental" flag?
    stateFile := ← setting? entries "state_file" path?
    verifyContentHash := ← setting? entries "verify_content_hash" flag?
    trackMoves := ← setting? entries "track_moves" flag?
    autoSave := ← setting? entries "auto_save" flag? }

def ofEntries? (entries : Toml.Entries) : Option Config := do
  return {
    scan := ← Scan.ofToml? (entries.lookup "scan")
    analysis := ← Analysis.ofToml? (entries.lookup "analysis")
    performance := ← Performance.ofToml? (entries.lookup "performance")
    cache := ← Cache.ofToml? (entries.lookup "cache") }

/-- The settings that a text holds; `source` names the text in errors. -/
def ofText (source text : String) : Except ConfigError Config :=
  match (Toml.parse? text).bind ofEntries? with
  | some config => .ok config
  | none => .error (.parse source "not a valid configuration")

def ofToml (text : String) : Except ConfigError Config :=
  ofText "<string>" text

/-- A setting, if it is set. -/
def entry {α : Type} (name : String) (encode : α → Toml) : Option α → Toml.Entries
  | some value => [(name, encode value)]
  | none => []

def listEntry (name : String) (items : List String) : Toml.Entries :=
  [(name, .array (items.map .string))]

def countValue (value : Nat) : Toml := .integer value

def pathValue (path : Path) : Toml := .string path.text

def Scan.entries (scan : Scan) : Toml.Entries :=
  entry "max_depth" countValue scan.maxDepth
    ++ entry "max_file_size" countValue scan.maxFileSize
    ++ listEntry "exclude" scan.exclude
    ++ entry "follow_symlinks" .boolean scan.followSymlinks

def Analysis.entries (analysis : Analysis) : Toml.Entries :=
  listEntry "layers" analysis.layers
    ++ entry "detect_cycles" .boolean analysis.detectCycles
    ++ entry "structure_index" .boolean analysis.structureIndex

def Performance.entries (performance : Performance) : Toml.Entries :=
  entry "parallel" .boolean performance.parallel
    ++ entry "threads" countValue performance.threads
    ++ entry "queue_capacity" countValue performance.queueCapacity

def Cache.entries (cache : Cache) : Toml.Entries :=
  entry "enabled" .boolean cache.enabled
    ++ entry "max_entries" countValue cache.maxEntries
    ++ entry "max_bytes" countValue cache.maxBytes
    ++ entry "incremental" .boolean cache.incremental
    ++ entry "state_file" pathValue cache.stateFile
    ++ entry "verify_content_hash" .boolean cache.verifyContentHash
    ++ entry "track_moves" .boolean cache.trackMoves
    ++ entry "auto_save" .boolean cache.autoSave

/-- The sections with the settings that are set. -/
def sections (config : Config) : List (String × Toml.Entries) := [
  ("scan", config.scan.entries),
  ("analysis", config.analysis.entries),
  ("performance", config.performance.entries),
  ("cache", config.cache.entries)]

/-- The settings as text, which holds every section. A number that takes more than 63 bits cannot be
written. -/
def toToml (config : Config) : Except ConfigError String :=
  match Toml.write? config.sections with
  | some text => .ok text
  | none => .error (.parse "<serialization>" "number out of range")

end DepAtlas.Config
