/-!
The flags of the command line. A switch stands alone, a setting takes a value.
-/

namespace DepAtlas

/-- A flag without a value. -/
inductive Switch
  | parallel
  | incremental
  | noCache
  | stats
  | verbose
  | help
  | version
deriving Repr, DecidableEq, Inhabited

namespace Switch

def all : List Switch :=
  [.parallel, .incremental, .noCache, .stats, .verbose, .help, .version]

/-- The name after two dashes. -/
def longName : Switch → String
  | parallel => "parallel"
  | incremental => "incremental"
  | noCache => "no-cache"
  | stats => "stats"
  | verbose => "verbose"
  | help => "help"
  | version => "version"

/-- The letter after one dash. -/
def letter? : Switch → Option Char
  | verbose => some 'v'
  | help => some 'h'
  | version => some 'V'
  | _ => none

def purpose : Switch → String
  | parallel => "Process files on a worker pool"
  | incremental => "Reuse results for unchanged files across runs"
  | noCache => "Disable the file content cache"
  | stats => "Append crawl statistics"
  | verbose => "Debug logging"
  | help => "Print help"
  | version => "Print version"

end Switch

/-- A flag with a value. -/
inductive Setting
  | depth
  | layer
  | wanted
  | unwanted
  | ignored
  | threads
  | stateFile
  | output
  | file
  | config
deriving Repr, DecidableEq, Inhabited

namespace Setting

def all : List Setting :=
  [.depth, .layer, .wanted, .unwanted, .ignored, .threads, .stateFile, .output, .file, .config]

/-- The name after two dashes. -/
def longName : Setting → String
  | depth => "depth"
  | layer => "layer"
  | wanted => "include"
  | unwanted => "exclude"
  | ignored => "ignore"
  | threads => "threads"
  | stateFile => "state-file"
  | output => "output"
  | file => "file"
  | config => "config"

/-- The letter after one dash. -/
def letter? : Setting → Option Char
  | depth => some 'd'
  | threads => some 'j'
  | output => some 'o'
  | file => some 'f'
  | config => some 'c'
  | _ => none

def purpose : Setting → String
  | depth => "Maximum directory depth below each root"
  | layer => "Layers to extract (repeatable) [possible values: module, struct, method, all]"
  | wanted => "Only show dependencies whose target or file contains this text (repeatable)"
  | unwanted => "Hide dependencies whose target or file contains this text (repeatable)"
  | ignored => "Skip paths matching this glob while walking (repeatable)"
  | threads => "Number of worker threads"
  | stateFile => "Where incremental state is persisted"
  | output => "Output format [default: terminal] [possible values: terminal, json, dot]"
  | file => "Write output to a file instead of stdout"
  | config => "Load configuration from this file instead of the project and user files"

end Setting

/-- A flag of the command line. -/
inductive Flag
  | switch (switch : Switch)
  | setting (setting : Setting)
deriving Repr, DecidableEq, Inhabited

namespace Flag

def all : List Flag :=
  Setting.all.map setting ++ Switch.all.map switch

/-- The name after two dashes. -/
def longName : Flag → String
  | switch s => s.longName
  | setting s => s.longName

/-- The letter after one dash. -/
def letter? : Flag → Option Char
  | switch s => s.letter?
  | setting s => s.letter?

/-- The flag with this name; a part of a name names nothing. -/
def ofName? (name : String) : Option Flag :=
  all.find? fun flag => flag.longName == name

/-- The flag with this letter. -/
def ofLetter? (letter : Char) : Option Flag :=
  all.find? fun flag => flag.letter? == some letter

end Flag

end DepAtlas
