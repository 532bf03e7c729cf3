import DepAtlas.CommandLine.Arguments

/-!
Reading a command line from left to right. Values that stand apart from their flag, and paths, are
looked at only when the next flag or path begins or the line ends, so an unknown flag right behind a
faulty value is what is reported.
-/

namespace DepAtlas

/-- Why reading ends early. -/
inductive ReaderStop
  | refused (cause : ArgumentError)
  | help
  | version
deriving Repr, DecidableEq, Inhabited

/-- Words that have been read and not looked at yet. -/
inductive PendingWords
  | none
  /-- A setting whose value is the next word. -/
  | awaiting (setting : Setting)
  | value (setting : Setting) (text : String)
  | paths (texts : List String)
deriving Repr, DecidableEq, Inhabited

/-- A command line that has been read in part. -/
structure ArgumentReader where
  arguments : Arguments := {}
  pending : PendingWords := .none
deriving Repr, Inhabited

namespace ArgumentReader

def refuse {α : Type} (cause : ArgumentError) : Except ReaderStop α :=
  .error (.refused cause)

/-- Takes over the outcome of adding words. -/
def taking (outcome : Except ArgumentError Arguments) : Except ReaderStop ArgumentReader :=
  match outcome with
  | .ok arguments => .ok { arguments }
  | .error cause => refuse cause

/-- Looks at the words that are left open. -/
def settle (reader : ArgumentReader) : Except ReaderStop ArgumentReader :=
  match reader.pending with
  | .none => .ok reader
  | .awaiting setting => refuse (.noValue ("--" ++ setting.longName) "")
  | .value setting text => taking (reader.arguments.give setting text)
  | .paths texts => taking (reader.arguments.addPaths texts)

def useSwitch (reader : ArgumentReader) (switch : Switch) : Except ReaderStop ArgumentReader := do
  let reader ← reader.settle
  let arguments := reader.arguments
  if arguments.has (.switch switch) then refuse (.repeated (.switch switch))
  else
    match switch with
    | .parallel => return { arguments := { arguments with parallel := true } }
    | .incremental => return { arguments := { arguments with incremental := true } }
    | .noCache => return { arguments := { arguments with noCache := true } }
    | .stats => return { arguments := { arguments with stats := true } }
    | .verbose => return { arguments := { arguments with verbose := true } }
    | .help => .error .help
    | .version => .error .version

/-- Begins a setting; a value that is attached to it is looked at right away. -/
def useSetting (reader : ArgumentReader) (setting : Setting) (attached : Option String) :
    Except ReaderStop ArgumentReader := do
  let reader ← reader.settle
  match attached with
  | some text => taking (reader.arguments.give setting text)
  | none => return { reader with pending := .awaiting setting }

/-- Reads a word that begins with two dashes, which are left out here. -/
def readLong (reader : ArgumentReader) (word : List Char) : Except ReaderStop ArgumentReader :=
  let name := String.ofList (word.takeWhile (· != '='))
  let attached :=
    match word.dropWhile (· != '=') with
    | [] => none
    | _ :: text => some (String.ofList text)
  match Flag.ofName? name, attached with
  | none, _ => refuse (.unknown ("--" ++ name))
  | some (.switch switch), some text => refuse (.unwantedValue switch text)
  | some (.switch switch), none => reader.useSwitch switch
  | some (.setting setting), attached => reader.useSetting setting attached

/-- Reads the letters after a single dash. The rest behind a setting's letter is its value, perhaps
after an equals sign. -/
def readLetters (reader : ArgumentReader) : List Char → Except ReaderStop ArgumentReader
  | [] => .ok reader
  | letter :: rest =>
    match Flag.ofLetter? letter with
    | none => refuse (.unknown (String.ofList ['-', letter]))
    | some (.switch switch) => do readLetters (← reader.useSwitch switch) rest
    | some (.setting setting) =>
      match rest with
      | [] => reader.useSetting setting none
      | '=' :: text => reader.useSetting setting (some (String.ofList text))
      | text => reader.useSetting setting (some (String.ofList text))

def readPath (reader : ArgumentReader) (text : String) : Except ReaderStop ArgumentReader :=
  match reader.pending with
  | .paths texts => .ok { reader with pending := .paths (texts ++ [text]) }
  | _ => do
    let reader ← reader.settle
    return { reader with pending := .paths [text] }

/-- Reads a word that is neither a flag nor a separator. -/
def readPlain (reader : ArgumentReader) (text : String) : Except ReaderStop ArgumentReader :=
  match reader.pending with
  | .awaiting setting => .ok { reader with pending := .value setting text }
  | _ => reader.readPath text

/-- Reads one word. A dash alone is no flag. -/
def readWord (reader : ArgumentReader) (word : String) : Except ReaderStop ArgumentReader :=
  match word.toList with
  | '-' :: '-' :: body => reader.readLong body
  | '-' :: letter :: letters => reader.readLetters (letter :: letters)
  | _ => reader.readPlain word

/-- Reads words. After a separator all of them are paths. -/
def readAll (reader : ArgumentReader) : List String → Except ReaderStop ArgumentReader
  | [] => reader.settle
  | word :: rest =>
    if word == "--" then do (← rest.foldlM readPath reader).settle
    else do readAll (← reader.readWord word) rest

end ArgumentReader

namespace Arguments

/-- Takes the file with settings from the environment, unless the command line names one. -/
def withEnvironment (arguments : Arguments) (env : Environment) : Except ArgumentError Arguments :=
  match arguments.config, env.lookup "DEPSCAN_CONFIG" with
  | none, some value => arguments.addValue .config value
  | _, _ => .ok arguments

def read (env : Environment) (words : List String) : Except ReaderStop Arguments := do
  let reader ← ({} : ArgumentReader).readAll words
  match reader.arguments.withEnvironment env with
  | .error cause => ArgumentReader.refuse cause
  | .ok arguments =>
    if arguments.paths.isEmpty then ArgumentReader.refuse .noPaths else return arguments

end Arguments

end DepAtlas
