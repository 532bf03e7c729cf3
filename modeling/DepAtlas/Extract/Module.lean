import DepAtlas.Extract.Source

/-!
Imported modules. Captured names are cleaned of quotation marks and separators; relative imports and
modules of the standard library are left out where the grammar says so.
-/

namespace DepAtlas

namespace Language

/-- Whether grouped import blocks are expanded. -/
def hasImportBlocks (language : Language) : Bool :=
  language == .go

/-- The characters around a module name that do not belong to it. -/
def isModuleQuote (c : Char) : Bool :=
  c == '"' || c == '\'' || c == ';'

/-- Drops the separators that a language leaves at the end or the start of a name. -/
def dropSeparators (language : Language) (name : Text) : Text :=
  match language with
  | rust => Text.dropTrailing [':', ':'] name
  | php => Text.dropLeading ['\\'] name
  | _ => name

/-- The cleaned name of a captured module; nothing when no character is left. -/
def moduleName? (language : Language) (raw : Text) : Option String :=
  let bare := Text.trimWhere isModuleQuote (Text.trim raw)
  match Text.trim (language.dropSeparators bare) with
  | [] => none
  | name => some (String.ofList name)

end Language

namespace Extract

/-- Whether an imported name is reported. -/
def keepsModule (grammar : Grammar) (name : String) : Bool :=
  let relative := name.toList.head? == some '.' || name.toList.head? == some '/'
  !(grammar.skipRelativeImports && relative) && !grammar.isLibrary name

/-- The dependency on a module captured at a byte offset, unless it is left out. -/
def moduleAt? (source : Source) (raw : Text) (offset : Nat) : Option Dependency :=
  match source.language.moduleName? raw with
  | none => none
  | some name =>
    if keepsModule source.grammar name then some (source.dependency name .module offset none)
    else none

/-- The quoted path on a line of an import block, with its offset in the line. A line comment, and
what is written around the quotation marks, is passed over. -/
def quotedImport? (line : Text) : Option (Nat × Text) := do
  let code := Text.before ['/', '/'] line
  let opening ← Text.findWhere? (· == '"') code
  let rest := Text.dropBytes (opening + 1) code
  let closing ← Text.findWhere? (· == '"') rest
  return (opening + 1, Text.takeBytes closing rest)

/-- The modules named on the lines of an import block that starts at `offset`. -/
def blockModules (source : Source) : Nat → List Text → List Dependency
  | _, [] => []
  | offset, line :: lines =>
    let found := (quotedImport? line).bind fun (inner, name) => moduleAt? source name (offset + inner)
    found.toList ++ blockModules source (offset + Text.byteLength line) lines

/-- The modules that single import statements name. -/
def statementModules (source : Source) (set : PatternSet) : List Dependency :=
  set.patterns.flatMap fun (pattern, _) =>
    (pattern.hits source.text).filterMap fun hit =>
      hit.captures.subject.bind fun span => moduleAt? source span.text span.offset

/-- The modules that import blocks name. -/
def groupedModules (source : Source) (set : PatternSet) : List Dependency :=
  match set.importBlock with
  | some pattern =>
    if source.language.hasImportBlocks then
      (pattern.hits source.text).flatMap fun hit =>
        match hit.captures.subject with
        | some span => blockModules source span.offset (Text.lines span.text)
        | none => []
    else []
  | none => []

/-- The imports of a file: single statements pattern by pattern, then blocks. -/
def modules (source : Source) (set : PatternSet) : List Dependency :=
  statementModules source set ++ groupedModules source set

end Extract

end DepAtlas
