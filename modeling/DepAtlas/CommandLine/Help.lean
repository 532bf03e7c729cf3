import DepAtlas.CommandLine.Flag

/-!
The text that explains the command line.
-/

namespace DepAtlas.Help

/-- A flag as it is typed. -/
def usage (flag : Flag) : String :=
  let lead :=
    match flag.letter? with
    | some letter => String.ofList ['-', letter, ',', ' ']
    | none => "    "
  let name := lead ++ "--" ++ flag.longName
  match flag with
  | .switch _ => name
  | .setting setting => name ++ " <" ++ setting.longName.map placeholder ++ ">"
where
  /-- The letters of the word that stands for a value. -/
  placeholder (c : Char) : Char := if c == '-' then '_' else c.toUpper

def purpose : Flag → String
  | .switch switch => switch.purpose
  | .setting setting => setting.purpose

/-- Fills a text with blanks up to a width. -/
def padded (width : Nat) (text : String) : String :=
  text ++ String.ofList (List.replicate (width - text.length) ' ')

def text : String :=
  let width := (Flag.all.map fun flag => (usage flag).length).foldl max 0
  let line := fun flag => "  " ++ padded width (usage flag) ++ "  " ++ purpose flag
  "\n".intercalate ([
    "Extract module, struct, and method dependencies from a source tree", "",
    "Usage: depscan [OPTIONS] <PATHS>...", "",
    "Arguments:", "  <PATHS>...  Files or directories to analyze", "",
    "Options:"] ++ Flag.all.map line ++ [""])

end DepAtlas.Help
