import DepAtlas.Config.Toml
import DepAtlas.Proofs.Toml.RoundTrip

/-!
Settings are read from their text as they were written, what is not set included. They can be written where
every number takes at most 63 bits.
-/

namespace DepAtlas.Config

open Toml

/-! What is found under a name -/

theorem lookup_one (name key : String) (value : Toml) :
    List.lookup key [(name, value)] = if key = name then some value else none := by
  by_cases same : key = name
  · simp [same]
  · have differ : (key == name) = false := beq_false_of_ne same
    simp [List.lookup_cons, same, differ]

theorem lookup_entry {α : Type} (name key : String) (encode : α → Toml) (value : Option α) :
    (entry name encode value).lookup key = if key = name then value.map encode else none := by
  cases value with
  | none => simp [entry]
  | some value => rw [entry, lookup_one, Option.map_some]

theorem lookup_listEntry (name key : String) (items : List String) :
    (listEntry name items).lookup key = if key = name then some (.array (items.map .string)) else none :=
  lookup_one name key _

theorem setting?_of_lookup {α : Type} {entries : Entries} {name : String} {encode : α → Toml}
    {decode : Toml → Option α} (restores : ∀ value, decode (encode value) = some value) {value : Option α}
    (found : entries.lookup name = value.map encode) : setting? entries name decode = some value := by
  rw [setting?, found]
  cases value with
  | none => rfl
  | some value => simp [restores]

theorem settingList?_of_lookup {entries : Entries} {name : String} {items : List String}
    (found : entries.lookup name = some (.array (items.map .string))) :
    settingList? entries name = some items := by
  rw [settingList?, found]
  clear found
  induction items with
  | nil => rfl
  | cons item items ih =>
    simp only at ih ⊢
    rw [List.map_cons, List.mapM_cons, ih]
    rfl

theorem count?_countValue (value : Nat) : count? (countValue value) = some value := by
  simp [count?, countValue]

theorem flag?_boolean (value : Bool) : flag? (.boolean value) = some value := rfl

theorem path?_pathValue (path : Path) : path? (pathValue path) = some path := rfl

theorem Scan.ofToml?_entries (scan : Scan) :
    Scan.ofToml? (some (.table .header scan.entries)) = some scan := by
  have found : setting? scan.entries "max_depth" count? = some scan.maxDepth ∧
      setting? scan.entries "max_file_size" count? = some scan.maxFileSize ∧
      settingList? scan.entries "exclude" = some scan.exclude ∧
      setting? scan.entries "follow_symlinks" flag? = some scan.followSymlinks := by
    refine ⟨setting?_of_lookup count?_countValue ?_, setting?_of_lookup count?_countValue ?_,
      settingList?_of_lookup ?_, setting?_of_lookup flag?_boolean ?_⟩
    all_goals simp [entries, List.lookup_append, lookup_entry, lookup_listEntry]
  simp [ofToml?, settings?, found]

theorem Analysis.ofToml?_entries (analysis : Analysis) :
    Analysis.ofToml? (some (.table .header analysis.entries)) = some analysis := by
  have found : settingList? analysis.entries "layers" = some analysis.layers ∧
      setting? analysis.entries "detect_cycles" flag? = some analysis.detectCycles ∧
      setting? analysis.entries "structure_index" flag? = some analysis.structureIndex := by
    refine ⟨settingList?_of_lookup ?_, setting?_of_lookup flag?_boolean ?_,
      setting?_of_lookup flag?_boolean ?_⟩
    all_goals simp [entries, List.lookup_append, lookup_entry, lookup_listEntry]
  simp [ofToml?, settings?, found]

theorem Performance.ofToml?_entries (performance : Performance) :
    Performance.ofToml? (some (.table .header performance.entries)) = some performance := by
  have found : setting? performance.entries "parallel" flag? = some performance.parallel ∧
      setting? performance.entries "threads" count? = some performance.threads ∧
      setting? performance.entries "queue_capacity" count? = some performance.queueCapacity := by
    refine ⟨setting?_of_lookup flag?_boolean ?_, setting?_of_lookup count?_countValue ?_,
      setting?_of_lookup count?_countValue ?_⟩
    all_goals simp [entries, List.lookup_append, lookup_entry]
  simp [ofToml?, settings?, found]

theorem Cache.ofToml?_entries (cache : Cache) :
    Cache.ofToml? (some (.table .header cache.entries)) = some cache := by
  have found : setting? cache.entries "enabled" flag? = some cache.enabled ∧
      setting? cache.entries "max_entries" count? = some cache.maxEntries ∧
      setting? cache.entries "max_bytes" count? = some cache.maxBytes ∧
      setting? cache.entries "incremental" flag? = some cache.incremental ∧
      setting? cache.entries "state_file" path? = some cache.stateFile ∧
      setting? cache.entries "verify_content_hash" flag? = some cache.verifyContentHash ∧
      setting? cache.entries "track_moves" flag? = some cache.trackMoves ∧
      setting? cache.entries "auto_save" flag? = some cache.autoSave := by
    refine ⟨setting?_of_lookup flag?_boolean ?_, setting?_of_lookup count?_countValue ?_,
      setting?_of_lookup count?_countValue ?_, setting?_of_lookup flag?_boolean ?_,
      setting?_of_lookup path?_pathValue ?_, setting?_of_lookup flag?_boolean ?_,
      setting?_of_lookup flag?_boolean ?_, setting?_of_lookup flag?_boolean ?_⟩
    all_goals simp [entries, List.lookup_append, lookup_entry]
  simp [ofToml?, settings?, found]

theorem ofEntries?_tablesOf (config : Config) : ofEntries? (tablesOf config.sections) = some config := by
  have found : (tablesOf config.sections).lookup "scan" = some (.table .header config.scan.entries) ∧
      (tablesOf config.sections).lookup "analysis" = some (.table .header config.analysis.entries) ∧
      (tablesOf config.sections).lookup "performance" = some (.table .header config.performance.entries) ∧
      (tablesOf config.sections).lookup "cache" = some (.table .header config.cache.entries) := by
    simp [tablesOf, sections, List.lookup_cons]
  simp [ofEntries?, found, Scan.ofToml?_entries, Analysis.ofToml?_entries, Performance.ofToml?_entries,
    Cache.ofToml?_entries]

/-! The names of sections and settings -/

theorem names_entry {α : Type} (name : String) (encode : α → Toml) (value : Option α) :
    ((entry name encode value).map (·.1)).Sublist [name] := by
  cases value with
  | none => exact List.nil_sublist _
  | some value => exact List.Sublist.refl _

theorem names_listEntry (name : String) (items : List String) :
    ((listEntry name items).map (·.1)).Sublist [name] :=
  List.Sublist.refl _

theorem Scan.names_entries (scan : Scan) : (scan.entries.map (·.1)).Sublist Scan.names := by
  simp only [entries, List.map_append]
  exact (((names_entry _ _ _).append (names_entry _ _ _)).append (names_listEntry _ _)).append
    (names_entry _ _ _)

theorem Analysis.names_entries (analysis : Analysis) :
    (analysis.entries.map (·.1)).Sublist Analysis.names := by
  simp only [entries, List.map_append]
  exact ((names_listEntry _ _).append (names_entry _ _ _)).append (names_entry _ _ _)

theorem Performance.names_entries (performance : Performance) :
    (performance.entries.map (·.1)).Sublist Performance.names := by
  simp only [entries, List.map_append]
  exact ((names_entry _ _ _).append (names_entry _ _ _)).append (names_entry _ _ _)

theorem Cache.names_entries (cache : Cache) : (cache.entries.map (·.1)).Sublist Cache.names := by
  simp only [entries, List.map_append]
  exact (((((((names_entry _ _ _).append (names_entry _ _ _)).append (names_entry _ _ _)).append
    (names_entry _ _ _)).append (names_entry _ _ _)).append (names_entry _ _ _)).append
    (names_entry _ _ _)).append (names_entry _ _ _)

/-- The names of the settings of each section. -/
def settingNames : List (String × List String) :=
  [("scan", Scan.names), ("analysis", Analysis.names), ("performance", Performance.names),
    ("cache", Cache.names)]

theorem isBareDocument_sections (config : Config) : IsBareDocument config.sections := by
  have named : ∀ part ∈ config.sections, ∃ names, (part.1, names) ∈ settingNames ∧
      (part.2.map (·.1)).Sublist names := by
    simp only [sections, List.forall_mem_cons]
    exact ⟨⟨_, by simp [settingNames], config.scan.names_entries⟩,
      ⟨_, by simp [settingNames], config.analysis.names_entries⟩,
      ⟨_, by simp [settingNames], config.performance.names_entries⟩,
      ⟨_, by simp [settingNames], config.cache.names_entries⟩, nofun⟩
  have bare : ∀ part ∈ settingNames, IsBareKey part.1 ∧ part.2.Nodup ∧ ∀ name ∈ part.2, IsBareKey name := by
    decide +kernel
  constructor
  case names =>
    intro part member
    obtain ⟨_, isNamed, -⟩ := named part member
    exact (bare _ isNamed).1
  case distinct =>
    have distinct : ["scan", "analysis", "performance", "cache"].Nodup := by decide
    exact distinct
  case keys =>
    intro part member entry isEntry
    obtain ⟨_, isNamed, within⟩ := named part member
    exact (bare _ isNamed).2.2 _ (within.subset (List.mem_map_of_mem isEntry))
  case distinctKeys =>
    intro part member
    obtain ⟨_, isNamed, within⟩ := named part member
    exact within.nodup (bare _ isNamed).2.1

/-! What can be written -/

/-- The numbers that are set. -/
def numbers (config : Config) : List Nat :=
  [config.scan.maxDepth, config.scan.maxFileSize, config.performance.threads,
    config.performance.queueCapacity, config.cache.maxEntries, config.cache.maxBytes].filterMap id

/-- Whether all values of a section can be written. -/
def Writable (entries : Entries) : Prop :=
  ∀ entry ∈ entries, (writeValue? entry.2).isSome

theorem writable_append (first second : Entries) :
    Writable (first ++ second) ↔ Writable first ∧ Writable second :=
  List.forall_mem_append

theorem writable_count (name : String) (value : Option Nat) :
    Writable (entry name countValue value) ↔ ∀ number, value = some number → number < signLimit64 := by
  have fits (number : Nat) : fitsSigned64 number ↔ number < signLimit64 := by
    rw [fitsSigned64, Bool.and_eq_true, decide_eq_true_iff, decide_eq_true_iff]
    omega
  cases value with
  | none => simp [Writable, entry]
  | some number =>
    have isWritten : (writeValue? (countValue number)).isSome ↔ number < signLimit64 := by
      rw [← fits, countValue, writeValue?, writeScalar?]
      · simp
      · intro empty
        cases empty
      · intro item single
        cases single
      · intro items several
        cases several
    simp only [Writable, entry, List.mem_singleton, forall_eq, isWritten, Option.some.injEq, forall_eq']

theorem writable_flag (name : String) (value : Option Bool) : Writable (entry name .boolean value) := by
  cases value <;> simp [Writable, entry, writeValue?, writeScalar?]

theorem writable_path (name : String) (value : Option Path) : Writable (entry name pathValue value) := by
  cases value <;> simp [Writable, entry, pathValue, writeValue?, writeScalar?]

theorem writable_list (name : String) (items : List String) : Writable (listEntry name items) := by
  intro entry member
  cases List.mem_singleton.mp member
  match items with
  | [] => rfl
  | [item] => rfl
  | first :: second :: items =>
    have all : (((first :: second :: items).map Toml.string).mapM writeScalar?).isSome :=
      isSome_mapM_iff.mpr (by simp [writeScalar?])
    obtain ⟨lines, areLines⟩ := Option.isSome_iff_exists.mp all
    rw [List.map_cons, List.map_cons] at areLines ⊢
    rw [writeValue?, areLines]
    · rfl
    · intro empty
      cases empty
    · intro item single
      cases single

/-- The settings can be written where the numbers among them can. -/
theorem isSome_write?_sections (config : Config) :
    (write? config.sections).isSome ↔ ∀ number ∈ config.numbers, number < signLimit64 := by
  have sections : (write? config.sections).isSome ↔ Writable config.scan.entries ∧
      Writable config.analysis.entries ∧ Writable config.performance.entries ∧
      Writable config.cache.entries := by
    rw [isSome_write?_iff]
    simp [sections, Writable]
  rw [sections]
  simp only [Scan.entries, Analysis.entries, Performance.entries, Cache.entries, writable_append,
    writable_count, writable_flag, writable_path, writable_list, and_true, true_and]
  simp [numbers, or_imp, forall_and, and_assoc, @eq_comm _ (some _)]

/-- Settings whose numbers all take at most 63 bits are read as they were written, and no others can be
written. -/
theorem toToml_round_trip (config : Config) :
    ((∀ number ∈ config.numbers, number < signLimit64) →
      ∃ text, config.toToml = .ok text ∧ ofToml text = .ok config) ∧
    ((∃ number ∈ config.numbers, signLimit64 ≤ number) → ∃ error, config.toToml = .error error) := by
  have writable := config.isSome_write?_sections
  constructor
  · intro small
    obtain ⟨text, isText⟩ := Option.isSome_iff_exists.mp (writable.mpr small)
    have read := parse?_of_write? config.isBareDocument_sections isText
    refine ⟨text, by rw [toToml, isText], ?_⟩
    rw [ofToml, ofText, read, Option.bind_some, ofEntries?_tablesOf]
  · rintro ⟨number, member, large⟩
    cases written : write? config.sections with
    | none => exact ⟨_, by rw [toToml, written]⟩
    | some text =>
      have small := writable.mp (written ▸ rfl) number member
      omega

/-- Settings with each form of string and the largest number, of which some are not set. -/
def thorny : Config where
  scan := { maxDepth := some 9223372036854775807, exclude := ["", "a'b\"c", "\"\"\"'''\\", "\u0001\n", "\r\n"] }
  analysis := { layers := ["\"\n'''\""], detectCycles := some false }
  cache := { stateFile := some ⟨"C:\\it's"⟩ }

theorem toToml_round_trip_thorny :
    (∃ text, thorny.toToml = .ok text ∧ ofToml text = .ok thorny) ∧
    (∃ error, { thorny with performance.threads := some signLimit64 }.toToml = .error error) :=
  ⟨(toToml_round_trip thorny).1 (by decide), (toToml_round_trip _).2 ⟨signLimit64, by decide, Nat.le_refl _⟩⟩

end DepAtlas.Config
