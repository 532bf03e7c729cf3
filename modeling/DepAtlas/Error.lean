import DepAtlas.IoFailure
import DepAtlas.Path

/-!
Everything that can go wrong, one type per part of the program. Each cause has a stable code for
machines and a message for people; `Failure` gathers the parts for a whole crawl.
-/

namespace DepAtlas

/-- A cause of failure with a stable code and a readable message. -/
class Coded (ε : Type) where
  code : ε → String
  message : ε → String

/-- The message with its code in front. -/
def codedMessage {ε : Type} [Coded ε] (cause : ε) : String :=
  s!"[{Coded.code cause}] {Coded.message cause}"

/-- Failures of the pattern store. -/
inductive PatternError
  | compilation (language layer : String) (index : Nat) (reason : String)
  | uninitialized
deriving Repr, DecidableEq

instance : Coded PatternError where
  code
    | .compilation .. => "PATTERN_COMPILE_FAILED"
    | .uninitialized => "PATTERN_CACHE_UNINITIALIZED"
  message
    | .compilation language layer index reason =>
      s!"Pattern {index} of {language} {layer} layer failed to compile: {reason}"
    | .uninitialized => "Pattern cache is not initialized"

/-- Failures of extraction from one file. -/
inductive ExtractError
  | patternsUnavailable (language layer : String)
  | unsupportedLanguage (path : Path)
  | crashed (path : Path) (reason : String)
deriving Repr

instance : Coded ExtractError where
  code
    | .unsupportedLanguage _ => "UNSUPPORTED_LANGUAGE"
    | _ => "EXTRACT_ERROR"
  message
    | .patternsUnavailable language layer => s!"No compiled patterns for {language} ({layer} layer)"
    | .unsupportedLanguage path => s!"Unsupported language for {path}"
    | .crashed path reason => s!"Extractor panicked on {path}: {reason}"

/-- Failures of the directory walk. -/
inductive ScanError
  | io (path : Path) (source : IoFailure)
  | invalidRoot (path : Path)
  | cancelled
  | invalidExclude (pattern reason : String)
deriving Repr

instance : Coded ScanError where
  code
    | .cancelled => "CANCELLED"
    | _ => "SCAN_ERROR"
  message
    | .io path source => s!"IO error scanning {path}: {source}"
    | .invalidRoot path => s!"Scan root is not a readable directory: {path}"
    | .cancelled => "Scan cancelled"
    | .invalidExclude pattern reason => s!"Invalid exclude pattern {pattern}: {reason}"

/-- Failures of the file content cache. -/
inductive CacheError
  | entryTooLarge (path : Path) (size budget : Nat)
  | read (path : Path) (source : IoFailure)
  | invalidLimits (reason : String)
deriving Repr

instance : Coded CacheError where
  code _ := "CACHE_ERROR"
  message
    | .entryTooLarge path size budget =>
      s!"Entry for {path} ({size} bytes) exceeds the cache byte budget of {budget}"
    | .read path source => s!"IO error reading {path}: {source}"
    | .invalidLimits reason => s!"Invalid cache limits: {reason}"

/-- Failures of loading or saving the state of earlier runs. -/
inductive StateError
  | io (path : Path) (source : IoFailure)
  | corrupt (path : Path) (reason : String)
  | versionMismatch (path : Path) (found expected : Nat)
  | locked (path : Path)
deriving Repr

instance : Coded StateError where
  code _ := "STATE_ERROR"
  message
    | .io path source => s!"IO error on state file {path}: {source}"
    | .corrupt path reason => s!"Corrupt state file {path}: {reason}"
    | .versionMismatch path found expected =>
      s!"State file {path} has version {found}, expected {expected}"
    | .locked path => s!"State file {path} is locked by another process"

/-- Failures of the work queue and the workers. -/
inductive DispatchError
  | invalidThreadCount (requested max : Nat)
  | queueFull (waitedMs : Nat)
  | shutDown
  | alreadyStarted
  | spawnFailed (worker : Nat) (reason : String)
deriving Repr, DecidableEq

instance : Coded DispatchError where
  code
    | .queueFull _ => "QUEUE_FULL"
    | _ => "DISPATCH_ERROR"
  message
    | .invalidThreadCount requested max =>
      s!"Invalid thread count {requested} (must be between 1 and {max})"
    | .queueFull waited => s!"Work queue full after waiting {waited}ms"
    | .shutDown => "Dispatcher is shut down"
    | .alreadyStarted => "Dispatcher already started"
    | .spawnFailed worker reason => s!"Failed to spawn worker {worker}: {reason}"

/-- Failures of the method table. -/
inductive CallGraphError
  | lockPoisoned
  | unknownMethod (name : String)
deriving Repr, DecidableEq

instance : Coded CallGraphError where
  code _ := "CALL_GRAPH_ERROR"
  message
    | .lockPoisoned => "Method table lock poisoned"
    | .unknownMethod name => s!"Unknown method: {name}"

/-- Failures of reading and checking the configuration. -/
inductive ConfigError
  | fileNotFound (path : String)
  | parse (path reason : String)
  | validation (field reason : String)
  | invalidValue (field reason : String)
deriving Repr, DecidableEq

instance : Coded ConfigError where
  code _ := "CONFIG_ERROR"
  message
    | .fileNotFound path => s!"Config file not found: {path}"
    | .parse path reason => s!"Config parse error in {path}: {reason}"
    | .validation field reason => s!"Config validation failed for {field}: {reason}"
    | .invalidValue field reason => s!"Invalid config value for {field}: {reason}"

/-- Any failure of a crawl. -/
inductive Failure
  | pattern (cause : PatternError)
  | extract (cause : ExtractError)
  | scan (cause : ScanError)
  | cache (cause : CacheError)
  | state (cause : StateError)
  | dispatch (cause : DispatchError)
  | callGraph (cause : CallGraphError)
  | config (cause : ConfigError)
  | cancelled
deriving Repr

instance : Coded Failure where
  code
    | .pattern cause => Coded.code cause
    | .extract cause => Coded.code cause
    | .scan cause => Coded.code cause
    | .cache cause => Coded.code cause
    | .state cause => Coded.code cause
    | .dispatch cause => Coded.code cause
    | .callGraph cause => Coded.code cause
    | .config cause => Coded.code cause
    | .cancelled => "CANCELLED"
  message
    | .pattern cause => "Pattern error: " ++ Coded.message cause
    | .extract cause => "Extract error: " ++ Coded.message cause
    | .scan cause => "Scan error: " ++ Coded.message cause
    | .cache cause => "Cache error: " ++ Coded.message cause
    | .state cause => "State error: " ++ Coded.message cause
    | .dispatch cause => "Dispatch error: " ++ Coded.message cause
    | .callGraph cause => "Call graph error: " ++ Coded.message cause
    | .config cause => "Configuration error: " ++ Coded.message cause
    | .cancelled => "Pipeline cancelled"

/-- A result together with the failures that did not stop the work. -/
structure Collected (α : Type) where
  data : α
  failures : List Failure := []

namespace Collected

def add {α : Type} (collected : Collected α) (failure : Failure) : Collected α :=
  { collected with failures := collected.failures ++ [failure] }

def isClean {α : Type} (collected : Collected α) : Bool :=
  collected.failures.isEmpty

def count {α : Type} (collected : Collected α) : Nat :=
  collected.failures.length

end Collected

end DepAtlas
