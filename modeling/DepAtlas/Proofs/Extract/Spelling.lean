import DepAtlas.Extract

/-!
The path of a file is in its dependencies as their source and plays no other part in extraction.
-/

namespace DepAtlas

/-- The same dependency with its source spelled anew. -/
def Dependency.respell (path : Path) (dependency : Dependency) : Dependency :=
  { dependency with source := path }

namespace Source

/-- The same file under another path. -/
def respell (path : Path) (source : Source) : Source :=
  { source with path }

variable (source : Source) (path : Path)

@[simp] theorem respell_grammar : (source.respell path).grammar = source.grammar := rfl

@[simp] theorem respell_text : (source.respell path).text = source.text := rfl

@[simp] theorem respell_language : (source.respell path).language = source.language := rfl

@[simp] theorem respell_patterns (store : PatternStore) (layer : Layer) :
    (source.respell path).patterns store layer = source.patterns store layer := rfl

@[simp] theorem respell_dependency (target : String) (layer : Layer) (offset : Nat)
    (detail : Option Detail) : (source.respell path).dependency target layer offset detail =
      (source.dependency target layer offset detail).respell path := rfl

end Source

namespace Extract

variable (source : Source) (path : Path) (set : PatternSet)

theorem moduleAt?_respell (raw : Text) (offset : Nat) :
    moduleAt? (source.respell path) raw offset =
      (moduleAt? source raw offset).map (Dependency.respell path) := by
  simp only [moduleAt?, Source.respell_language, Source.respell_grammar, Source.respell_dependency]
  cases source.language.moduleName? raw with
  | none => rfl
  | some name => cases keeps : keepsModule source.grammar name <;> simp [keeps]

theorem blockModules_respell (offset : Nat) (lines : List Text) :
    blockModules (source.respell path) offset lines =
      (blockModules source offset lines).map (Dependency.respell path) := by
  induction lines generalizing offset with
  | nil => rfl
  | cons line lines ih =>
    rw [blockModules, blockModules, List.map_append, ih]
    cases quotedImport? line with
    | none => rfl
    | some found =>
      simp only [Option.bind_some, moduleAt?_respell]
      cases moduleAt? source found.2 (offset + found.1) <;> rfl

theorem statementModules_respell :
    statementModules (source.respell path) set =
      (statementModules source set).map (Dependency.respell path) := by
  simp only [statementModules, Source.respell_text, List.map_flatMap, List.map_filterMap]
  congr 1
  funext entry
  congr 1
  funext hit
  cases hit.captures.subject with
  | none => rfl
  | some span => exact moduleAt?_respell source path _ _

theorem groupedModules_respell :
    groupedModules (source.respell path) set =
      (groupedModules source set).map (Dependency.respell path) := by
  simp only [groupedModules, Source.respell_text, Source.respell_language]
  cases set.importBlock with
  | none => rfl
  | some pattern =>
    by_cases blocks : source.language.hasImportBlocks
    · simp only [blocks, if_true, List.map_flatMap]
      congr 1
      funext hit
      cases hit.captures.subject with
      | none => rfl
      | some span => exact blockModules_respell source path _ _
    · simp [blocks]

theorem modules_respell :
    modules (source.respell path) set = (modules source set).map (Dependency.respell path) := by
  rw [modules, modules, List.map_append, statementModules_respell, groupedModules_respell]

theorem structures_respell :
    structures (source.respell path) set = (structures source set).map (Dependency.respell path) := by
  simp only [structures, Source.respell_text, Source.respell_dependency, List.map_map]
  rfl

theorem method?_respell (hit : Hit) :
    method? (source.respell path) set hit = (method? source set hit).map (Dependency.respell path) := by
  simp only [method?, Source.respell_grammar, Source.respell_text, Source.respell_dependency]
  cases hit.captures.subject with
  | none => rfl
  | some name =>
    simp only [Option.bind_eq_bind, Option.bind_some]
    by_cases keyword : source.grammar.isKeyword name.toString
    · simp [keyword]
    by_cases result : (capturedResult? hit).any source.grammar.isKeyword
    · simp [result]
    cases source.grammar.definitionSpan? source.text hit.whole.offset name.stop with
    | none => simp [keyword, result]
    | some span => simp [keyword, result]

theorem firstMethods_respell (seen : List String) (hits : List Hit) :
    firstMethods (source.respell path) set seen hits =
      (firstMethods source set seen hits).map (Dependency.respell path) := by
  induction hits generalizing seen with
  | nil => rfl
  | cons hit hits ih =>
    rw [firstMethods, firstMethods, method?_respell]
    split
    · exact ih seen
    · cases method? source set hit with
      | none => exact ih seen
      | some found =>
        simp only [Option.map_some, List.map_cons, ← ih]
        rfl

theorem methods_respell :
    methods (source.respell path) set = (methods source set).map (Dependency.respell path) :=
  firstMethods_respell source path set _ _

theorem layer_respell (store : PatternStore) (part : Layer) :
    layer store (source.respell path) part =
      (layer store source part).map (List.map (Dependency.respell path)) := by
  simp only [layer, Source.respell_patterns]
  cases source.patterns store part with
  | error cause => rfl
  | ok set =>
    cases part with
    | module => exact congrArg Except.ok (modules_respell source path set)
    | struct => exact congrArg Except.ok (structures_respell source path set)
    | method => exact congrArg Except.ok (methods_respell source path set)

theorem layers_respell (store : PatternStore) (parts : List Layer) :
    layers store (source.respell path) parts =
      (layers store source parts).map (List.map (Dependency.respell path)) := by
  induction parts with
  | nil => rfl
  | cons first rest ih =>
    rw [layers, layers, layer_respell, ih]
    cases layer store source first with
    | error cause => rfl
    | ok found =>
      cases layers store source rest with
      | error cause => rfl
      | ok more => exact congrArg Except.ok List.map_append.symm

end Extract

/-- The dependencies of a file under another path are the same but for their source. -/
theorem extractAs_respell (store : PatternStore) (language : Language) (path other : Path)
    (content : String) (mask : LayerMask) :
    extractAs store language other content mask =
      (extractAs store language path content mask).map (List.map (Dependency.respell other)) :=
  Extract.layers_respell (.ofContent language path content) other store mask.toList

end DepAtlas
