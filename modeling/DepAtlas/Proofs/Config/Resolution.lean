import DepAtlas.Config.Load

/-!
Where each setting comes from. A setting has the value of the first of command line, environment, project
file and user file that sets it; lists come from the first source with a list that is not empty, and the
globs of the command line are added to those of the files. Loading fails only for a file that cannot be
understood, a project file that cannot be read, or settings that do not pass their check.
-/

namespace DepAtlas.Config

/-- The settings that have one value, by the type of that value. -/
inductive Setting : Type → Type
  | maxDepth : Setting Nat
  | maxFileSize : Setting Nat
  | followSymlinks : Setting Bool
  | detectCycles : Setting Bool
  | structureIndex : Setting Bool
  | parallel : Setting Bool
  | threads : Setting Nat
  | queueCapacity : Setting Nat
  | enabled : Setting Bool
  | maxEntries : Setting Nat
  | maxBytes : Setting Nat
  | incremental : Setting Bool
  | stateFile : Setting Path
  | verifyContentHash : Setting Bool
  | trackMoves : Setting Bool
  | autoSave : Setting Bool

namespace Setting

variable {α : Type}

/-- What settings say. -/
def among (config : Config) : Setting α → Option α
  | maxDepth => config.scan.maxDepth
  | maxFileSize => config.scan.maxFileSize
  | followSymlinks => config.scan.followSymlinks
  | detectCycles => config.analysis.detectCycles
  | structureIndex => config.analysis.structureIndex
  | parallel => config.performance.parallel
  | threads => config.performance.threads
  | queueCapacity => config.performance.queueCapacity
  | enabled => config.cache.enabled
  | maxEntries => config.cache.maxEntries
  | maxBytes => config.cache.maxBytes
  | incremental => config.cache.incremental
  | stateFile => config.cache.stateFile
  | verifyContentHash => config.cache.verifyContentHash
  | trackMoves => config.cache.trackMoves
  | autoSave => config.cache.autoSave

/-- What the command line says; it has no flag for most settings. -/
def onCommandLine (overrides : Overrides) : Setting α → Option α
  | maxDepth => overrides.maxDepth
  | threads => overrides.threads
  | parallel => overrides.parallel
  | incremental => overrides.incremental
  | enabled => overrides.cacheEnabled
  | stateFile => overrides.stateFile
  | _ => none

/-- The variable that stands for a setting, if there is one. -/
def environmentName? : Setting α → Option String
  | maxDepth => some "DEPSCAN_SCAN_MAX_DEPTH"
  | maxFileSize => some "DEPSCAN_SCAN_MAX_FILE_SIZE"
  | threads => some "DEPSCAN_THREADS"
  | parallel => some "DEPSCAN_PARALLEL"
  | incremental => some "DEPSCAN_INCREMENTAL"
  | maxEntries => some "DEPSCAN_CACHE_MAX_ENTRIES"
  | maxBytes => some "DEPSCAN_CACHE_MAX_BYTES"
  | stateFile => some "DEPSCAN_STATE_FILE"
  | _ => none

/-- The value that the text of a variable stands for: a number, a truth value or a path. -/
def parse? : Setting α → String → Option α
  | maxDepth | maxFileSize | threads | queueCapacity | maxEntries | maxBytes => Environment.count?
  | followSymlinks | detectCycles | structureIndex | parallel | enabled | incremental | verifyContentHash
  | trackMoves | autoSave => Environment.flag?
  | stateFile => fun text => some ⟨text⟩

/-- What the environment says; a text that stands for no value counts as not set. -/
def inEnvironment (env : Environment) (setting : Setting α) : Option α :=
  setting.environmentName?.bind fun name => (env.lookup name).bind setting.parse?

end Setting

/-- The first value that is set. -/
def firstSet {α : Type} (values : List (Option α)) : Option α :=
  values.findSome? id

/-- The first list that is not empty. -/
def firstFilled (lists : List (List String)) : List String :=
  (lists.find? fun list => !list.isEmpty).getD []

/-- Settings that follow the order of their sources. -/
structure Resolves (overrides : Overrides) (env : Environment) (project user result : Config) : Prop where
  setting : ∀ {α : Type} (setting : Setting α), setting.among result =
    firstSet [setting.onCommandLine overrides, setting.inEnvironment env, setting.among project,
      setting.among user]
  layers : result.analysis.layers =
    firstFilled [overrides.layers, project.analysis.layers, user.analysis.layers]
  exclude : result.scan.exclude =
    firstFilled [project.scan.exclude, user.scan.exclude] ++ overrides.exclude

theorem firstSet_cons {α : Type} (value : Option α) (values : List (Option α)) :
    firstSet (value :: values) = (value <|> firstSet values) := by
  cases value <;> rfl

theorem firstFilled_pair (first second : List String) :
    firstFilled [first, second] = firstList first second := by
  cases first <;> cases second <;> rfl

theorem firstFilled_cons (first : List String) (lists : List (List String)) :
    firstFilled (first :: lists) = firstList first (firstFilled lists) := by
  cases first <;> rfl

/-- The settings that sources give together. -/
def resolution (overrides : Overrides) (env : Environment) (project user : Config) : Config :=
  (merge (merge user project) (ofEnvironment env)).override overrides

theorem resolves_resolution (overrides : Overrides) (env : Environment) (project user : Config) :
    Resolves overrides env project user (resolution overrides env project user) where
  setting setting := by
    simp only [firstSet_cons]
    cases setting <;>
      simp [firstSet, Setting.among, Setting.onCommandLine, Setting.inEnvironment, Setting.environmentName?,
        Setting.parse?, resolution, override, merge, ofEnvironment, Environment.value?]
  layers := by
    rw [firstFilled_cons, firstFilled_pair]
    rfl
  exclude := by
    rw [firstFilled_pair]
    rfl

/-- The settings that follow the order of their sources are determined by it. -/
theorem Resolves.eq {overrides : Overrides} {env : Environment} {project user first second : Config}
    (left : Resolves overrides env project user first)
    (right : Resolves overrides env project user second) : first = second := by
  have same {α : Type} (setting : Setting α) : setting.among first = setting.among second :=
    (left.setting setting).trans (right.setting setting).symm
  have layers := left.layers.trans right.layers.symm
  have exclude := left.exclude.trans right.exclude.symm
  obtain ⟨⟨_, _, _, _⟩, ⟨_, _, _⟩, ⟨_, _, _⟩, ⟨_, _, _, _, _, _, _, _⟩⟩ := first
  obtain ⟨⟨_, _, _, _⟩, ⟨_, _, _⟩, ⟨_, _, _⟩, ⟨_, _, _, _, _, _, _, _⟩⟩ := second
  cases same .maxDepth
  cases same .maxFileSize
  cases same .followSymlinks
  cases same .detectCycles
  cases same .structureIndex
  cases same .parallel
  cases same .threads
  cases same .queueCapacity
  cases same .enabled
  cases same .maxEntries
  cases same .maxBytes
  cases same .incremental
  cases same .stateFile
  cases same .verifyContentHash
  cases same .trackMoves
  cases same .autoSave
  cases layers
  cases exclude
  rfl

theorem resolves_iff {overrides : Overrides} {env : Environment} {project user result : Config} :
    Resolves overrides env project user result ↔ result = resolution overrides env project user := by
  constructor
  · intro resolves
    exact resolves.eq (resolves_resolution overrides env project user)
  · rintro rfl
    exact resolves_resolution overrides env project user

theorem firstList_assoc (first second third : List String) :
    firstList first (firstList second third) = firstList (firstList first second) third := by
  cases first <;> rfl

theorem merge_assoc (lower middle upper : Config) :
    merge (merge lower middle) upper = merge lower (merge middle upper) := by
  simp [merge, firstList_assoc, Option.or_assoc]

theorem merge_default_left (config : Config) : merge {} config = config := by
  have list (items : List String) : firstList items [] = items := by cases items <;> rfl
  simp [merge, list]

theorem merge_default_right (config : Config) : merge config {} = config := by
  simp [merge, firstList]

/-- What a look for settings in a file comes to. -/
inductive Finding
  /-- There is no such file. -/
  | absent
  /-- The file cannot be read as text. -/
  | unreadable
  /-- The text does not hold settings. -/
  | malformed
  | settings (config : Config)

namespace Finding

/-- Looks for settings in a file. -/
def ofPath (fs : FileSystem) (path : Path) : Finding :=
  if fs.exists? path then
    match (fs.read path).toOption.bind Text.Utf8.decode? with
    | none => unreadable
    | some text =>
      match (Toml.parse? (String.ofList text)).bind ofEntries? with
      | none => malformed
      | some config => settings config
  else absent

/-- Looks for the settings of the user. -/
def ofUser (fs : FileSystem) (env : Environment) : Finding :=
  match userFile? env with
  | none => absent
  | some path => ofPath fs path

/-- Looks for the settings of the project below a root. -/
def ofProject (fs : FileSystem) (root : Path) : Finding :=
  ofPath fs (root.join ⟨"depscan.toml"⟩)

/-- The settings that were found, if any. -/
def config : Finding → Config
  | settings config => config
  | _ => {}

end Finding

theorem exists?_of_read {fs : FileSystem} {path : Path} {bytes : Bytes}
    (readable : fs.read path = .ok bytes) : fs.exists? path = true := by
  rw [FileSystem.read] at readable
  rw [FileSystem.exists?]
  cases found : fs.metadata path with
  | ok => rfl
  | error failure =>
    rw [found] at readable
    cases readable

theorem ofFile_eq (fs : FileSystem) (path : Path) :
    ofFile fs path =
      match Finding.ofPath fs path with
      | .settings config => .ok config
      | .malformed => .error (.parse path.text "not a valid configuration")
      | _ => .error (.fileNotFound path.text) := by
  rw [ofFile, Finding.ofPath]
  by_cases there : fs.exists? path = true
  · rw [if_pos there]
    cases (fs.read path).toOption.bind Text.Utf8.decode? with
    | none => rfl
    | some text =>
      simp only [ofText]
      cases (Toml.parse? (String.ofList text)).bind ofEntries? <;> rfl
  · have unread : (fs.read path).toOption = none := by
      cases read : fs.read path with
      | ok bytes => exact absurd (exists?_of_read read) there
      | error => rfl
    rw [if_neg there, unread]
    rfl

theorem userSettings_eq_ok_iff {fs : FileSystem} {env : Environment} {config : Config} :
    userSettings fs env = .ok config ↔
      Finding.ofUser fs env ≠ .malformed ∧ config = (Finding.ofUser fs env).config := by
  rw [userSettings, Finding.ofUser]
  cases userFile? env with
  | none => simp [Finding.config, eq_comm]
  | some path =>
    simp only [ofFile_eq]
    cases Finding.ofPath fs path <;> simp [Finding.config, eq_comm]

theorem projectSettings_eq_ok_iff {fs : FileSystem} {root : Path} {config : Config} :
    projectSettings fs root = .ok config ↔
      Finding.ofProject fs root ≠ .malformed ∧ Finding.ofProject fs root ≠ .unreadable ∧
        config = (Finding.ofProject fs root).config := by
  rw [projectSettings, Finding.ofProject]
  by_cases there : fs.exists? (root.join ⟨"depscan.toml"⟩) = true
  · have present : Finding.ofPath fs (root.join ⟨"depscan.toml"⟩) ≠ .absent := by
      rw [Finding.ofPath, if_pos there]
      split
      · simp
      · split <;> simp
    simp only [there, if_true, ofFile_eq]
    cases found : Finding.ofPath fs (root.join ⟨"depscan.toml"⟩) with
    | absent => exact absurd found present
    | _ => simp [Finding.config, eq_comm]
  · have absent : Finding.ofPath fs (root.join ⟨"depscan.toml"⟩) = .absent := by
      rw [Finding.ofPath, if_neg there]
    simp [there, absent, Finding.config, eq_comm]

theorem finish_eq_ok_iff {config result : Config} {env : Environment} {overrides : Overrides} :
    finish config env overrides = .ok result ↔
      result = (merge config (ofEnvironment env)).override overrides ∧ result.validate = .ok () := by
  rw [finish]
  cases valid : ((merge config (ofEnvironment env)).override overrides).validate with
  | error cause =>
    simp only [bind, Except.bind, reduceCtorEq, false_iff, not_and]
    rintro rfl
    simp [valid]
  | ok =>
    simp only [bind, Except.bind, pure, Except.pure, Except.ok.injEq]
    constructor
    · rintro rfl
      exact ⟨rfl, valid⟩
    · rintro ⟨rfl, -⟩
      rfl

theorem load_eq_ok_iff {fs : FileSystem} {env : Environment} {root : Path} {overrides : Overrides}
    {result : Config} :
    load fs env root overrides = .ok result ↔
      Finding.ofUser fs env ≠ .malformed ∧ Finding.ofProject fs root ≠ .malformed ∧
        Finding.ofProject fs root ≠ .unreadable ∧
        result = resolution overrides env (Finding.ofProject fs root).config
          (Finding.ofUser fs env).config ∧
        result.validate = .ok () := by
  have opened : load fs env root overrides = .ok result ↔
      ∃ user, userSettings fs env = .ok user ∧ ∃ project, projectSettings fs root = .ok project ∧
        finish (merge user project) env overrides = .ok result := by
    rw [load]
    cases userSettings fs env <;> cases projectSettings fs root <;> simp [bind, Except.bind]
  rw [opened]
  simp only [userSettings_eq_ok_iff, projectSettings_eq_ok_iff, finish_eq_ok_iff]
  constructor
  · rintro ⟨_, ⟨user, rfl⟩, _, ⟨malformed, unreadable, rfl⟩, resolved, valid⟩
    exact ⟨user, malformed, unreadable, resolved, valid⟩
  · rintro ⟨user, malformed, unreadable, resolved, valid⟩
    exact ⟨_, ⟨user, rfl⟩, _, ⟨malformed, unreadable, rfl⟩, resolved, valid⟩

/-- Loading gives the settings in the order of their sources, and fails for just three reasons; and
settings of files are put above one another in one way, whatever is put together first. -/
theorem load_resolves_by_source (fs : FileSystem) (env : Environment) (root : Path)
    (overrides : Overrides) :
    let user := Finding.ofUser fs env
    let project := Finding.ofProject fs root
    (∀ result, load fs env root overrides = .ok result →
        Resolves overrides env project.config user.config result) ∧
      ((∃ cause, load fs env root overrides = .error cause) ↔
        user = .malformed ∨ project = .malformed ∨ project = .unreadable ∨
          ∃ resolved, Resolves overrides env project.config user.config resolved ∧
            ∃ cause, resolved.validate = .error cause) ∧
      (∀ lower middle upper, merge (merge lower middle) upper = merge lower (merge middle upper)) ∧
      ∀ config, merge {} config = config ∧ merge config {} = config := by
  intro user project
  refine ⟨?_, ?_, merge_assoc, fun config => ⟨merge_default_left config, merge_default_right config⟩⟩
  · intro result loaded
    exact resolves_iff.mpr (load_eq_ok_iff.mp loaded).2.2.2.1
  · simp only [resolves_iff, exists_eq_left]
    cases outcome : load fs env root overrides with
    | ok result =>
      obtain ⟨isUser, isProject, read, resolved, valid⟩ := load_eq_ok_iff.mp outcome
      rw [resolved] at valid
      simp [user, project, isUser, isProject, read, valid]
    | error cause =>
      simp only [Except.error.injEq, exists_eq', true_iff]
      apply Classical.byContradiction
      intro others
      simp only [not_or, not_exists] at others
      obtain ⟨isUser, isProject, read, valid⟩ := others
      have passes : (resolution overrides env project.config user.config).validate = .ok () := by
        cases checked : (resolution overrides env project.config user.config).validate with
        | ok => rfl
        | error cause => exact absurd checked (valid cause)
      have loaded := load_eq_ok_iff.mpr ⟨isUser, isProject, read, rfl, passes⟩
      rw [outcome] at loaded
      cases loaded

end DepAtlas.Config
