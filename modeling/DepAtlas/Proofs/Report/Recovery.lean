import DepAtlas.Proofs.Incremental.StateFile
import DepAtlas.Report.Json

/-!
A JSON report loses nothing of what its filter lets through: it can be read, and its lists are decoded as
what is shown of the graph. Numbers must take the bits that they have, and sets of files must be sorted.
-/

namespace DepAtlas

theorem PathSet.insert_last {path : Path} {set : PathSet} (last : ∀ other ∈ set, other.Before path) :
    insert path set = set ++ [path] := by
  induction set with
  | nil => rfl
  | cons first rest ih =>
    have after : Ord.compare path first = .gt :=
      Std.OrientedCmp.gt_of_lt (last first List.mem_cons_self)
    rw [insert, after]
    simp only [ih fun other member => last other (List.mem_cons_of_mem _ member), List.cons_append]

theorem PathSet.ofList_eq_self {set : PathSet} (increasing : Increasing set) : ofList set = set := by
  have grows (done more : PathSet) (increasing : Increasing (done ++ more)) :
      more.foldl (fun set path => insert path set) done = done ++ more := by
    induction more generalizing done with
    | nil => simp
    | cons path more ih =>
      have last : ∀ other ∈ done, other.Before path := fun other member =>
        (List.pairwise_append.mp increasing).2.2 other member path List.mem_cons_self
      rw [List.append_cons] at increasing ⊢
      rw [List.foldl_cons, insert_last last, ih _ increasing]
  exact grows [] set increasing

open Json

theorem PathSet.restores {set : PathSet} (increasing : Increasing set) :
    Restores (Json.ofList Path.toJson) PathSet.ofJson? set := by
  have paths : (asRead (Json.ofList Path.toJson set)).list? Path.ofJson? = some set :=
    Restores.list fun _ _ => rfl
  rw [Restores, PathSet.ofJson?, paths, Option.map_some, ofList_eq_self increasing]

theorem Json.fits_strings (names : List String) (depth : Nat) : fits (depth + 1) (strings names) :=
  fits_ofList (fun _ => rfl) names

theorem Json.fits_ofOption {text : Option String} (depth : Nat) : fits depth (ofOption .str text) := by
  cases text <;> cases depth <;> rfl

/-- The line of a method takes the bits that it has, and the files that call it are sorted. -/
structure Method.Fits (method : Method) : Prop where
  line : method.line < limit32
  references : PathSet.Increasing method.references

namespace Method

theorem restores {method : Method} (fits : method.Fits) :
    Restores Method.toJson Method.ofJson? method := by
  obtain ⟨name, definedIn, line, returnType, dependencies, references⟩ := method
  have isLine : (asRead (nat line)).natBelow? limit32 = some line :=
    restores_natBelow fits.line (by decide)
  have areDependencies : (asRead (strings dependencies)).strings? = some dependencies :=
    restores_strings dependencies
  have areReferences : PathSet.ofJson? (asRead (.ofList Path.toJson references)) = some references :=
    PathSet.restores fits.references
  cases returnType
  all_goals
    change ((asRead (nat line)).natBelow? limit32).bind (fun line =>
      (asRead (strings dependencies)).strings?.bind fun dependencies =>
      (PathSet.ofJson? (asRead (.ofList Path.toJson references))).bind fun references =>
      some (Method.mk name definedIn line _ dependencies references)) = _
    rw [isLine, areDependencies, areReferences]
    rfl

theorem fits_toJson (method : Method) (depth : Nat) : Json.fits (depth + 2) method.toJson := by
  have paths : Json.fits (depth + 1) (.ofList Path.toJson method.references) :=
    fits_ofList (fun _ => rfl) _
  simp [toJson, Json.fits, membersFit, fits_strings, fits_ofOption, paths, Path.toJson, nat]

end Method

/-- The line of a declared type takes the bits that it has, and the files that mention it are sorted. -/
structure StructureEntry.Fits (entry : StructureEntry) : Prop where
  line : entry.line < limit32
  referencedIn : PathSet.Increasing entry.referencedIn

namespace StructureEntry

theorem restores {entry : StructureEntry} (fits : entry.Fits) :
    Restores StructureEntry.toJson StructureEntry.ofJson? entry := by
  obtain ⟨name, definedIn, line, declaration, base, referencedIn⟩ := entry
  have isLine : (asRead (nat line)).natBelow? limit32 = some line :=
    restores_natBelow fits.line (by decide)
  have areReferences : PathSet.ofJson? (asRead (.ofList Path.toJson referencedIn)) = some referencedIn :=
    PathSet.restores fits.referencedIn
  cases base
  all_goals
    change ((asRead (nat line)).natBelow? limit32).bind (fun line =>
      (PathSet.ofJson? (asRead (.ofList Path.toJson referencedIn))).bind fun referencedIn =>
      some (StructureEntry.mk name definedIn line declaration _ referencedIn)) = _
    rw [isLine, areReferences]
    rfl

theorem fits_toJson (entry : StructureEntry) (depth : Nat) : Json.fits (depth + 2) entry.toJson := by
  have paths : Json.fits (depth + 1) (.ofList Path.toJson entry.referencedIn) :=
    fits_ofList (fun _ => rfl) _
  simp [toJson, Json.fits, membersFit, fits_ofOption, paths, Path.toJson, nat]

end StructureEntry

/-- The numbers of a change take the bits that they have. -/
structure DependencyChange.Fits (change : DependencyChange) : Prop where
  previous : Dependency.Fit change.previous
  current : Dependency.Fit change.current
  timestamp : change.timestamp < limit64

namespace DependencyChange

theorem restores {change : DependencyChange} (fits : change.Fits) :
    Restores DependencyChange.toJson DependencyChange.ofJson? change := by
  obtain ⟨path, previous, current, added, removed, ⟨bits⟩, timestamp⟩ := change
  have arePrevious : (asRead (.ofList Dependency.toJson previous)).list? Dependency.ofJson? =
      some previous :=
    Restores.list fun dependency member => Dependency.restores (fits.previous dependency member)
  have areCurrent : (asRead (.ofList Dependency.toJson current)).list? Dependency.ofJson? =
      some current :=
    Restores.list fun dependency member => Dependency.restores (fits.current dependency member)
  have areAdded : (asRead (strings added)).strings? = some added := restores_strings added
  have areRemoved : (asRead (strings removed)).strings? = some removed := restores_strings removed
  have areLayers : (asRead (nat bits.toNat)).natBelow? 256 = some bits.toNat :=
    restores_natBelow bits.toNat_lt (by decide)
  have isTimestamp : (asRead (nat timestamp)).count? = some timestamp :=
    restores_natBelow fits.timestamp (Nat.le_refl _)
  change ((asRead (.ofList Dependency.toJson previous)).list? Dependency.ofJson?).bind (fun previous =>
    ((asRead (.ofList Dependency.toJson current)).list? Dependency.ofJson?).bind fun current =>
    (asRead (strings added)).strings?.bind fun added =>
    (asRead (strings removed)).strings?.bind fun removed =>
    ((asRead (nat bits.toNat)).natBelow? 256).bind fun layers =>
    (asRead (nat timestamp)).count?.bind fun timestamp =>
    some (DependencyChange.mk path previous current added removed ⟨layers.toUInt8⟩ timestamp)) = _
  rw [arePrevious, areCurrent, areAdded, areRemoved, areLayers, isTimestamp]
  simp

theorem fits_toJson (change : DependencyChange) (depth : Nat) :
    Json.fits (depth + 5) change.toJson := by
  have lists (dependencies : List Dependency) :
      Json.fits (depth + 4) (.ofList Dependency.toJson dependencies) :=
    fits_ofList (Dependency.fits_toJson · depth) _
  simp [toJson, Json.fits, membersFit, lists, fits_strings, Path.toJson, nat]

end DependencyChange

namespace FileFailure

theorem restores (failure : FileFailure) : Restores FileFailure.toJson FileFailure.ofJson? failure :=
  rfl

theorem fits_toJson (failure : FileFailure) (depth : Nat) : Json.fits (depth + 1) failure.toJson :=
  rfl

end FileFailure

theorem CrawlStats.fits_countsToJson (counts : List (String × Nat)) (depth : Nat) :
    Json.fits (depth + 1) (countsToJson counts) := by
  induction counts with
  | nil => rfl
  | cons entry counts ih =>
    simp only [countsToJson, Json.fits, List.map_cons, membersFit] at ih ⊢
    rw [ih]
    simp [nat, Json.fits]

theorem CrawlStats.fits_toJson (stats : CrawlStats) (depth : Nat) :
    Json.fits (depth + 2) stats.toJson := by
  have callGraph : Json.fits (depth + 1) stats.callGraph.toJson := by
    simp [CallGraphStats.toJson, Json.fits, membersFit, nat]
  have fileCache (stats : FileCacheStats) : Json.fits (depth + 1) stats.toJson := by
    simp [FileCacheStats.toJson, Json.fits, membersFit, nat]
  have incremental (stats : IncrementalStats) : Json.fits (depth + 1) stats.toJson := by
    simp [IncrementalStats.toJson, Json.fits, membersFit, nat]
  simp only [toJson, Json.fits, membersFit_append, Bool.and_eq_true]
  cases stats.fileCache <;> cases stats.incremental <;>
    simp [membersFit, nat, Json.fits, fits_countsToJson, callGraph, fileCache, incremental]

/-- The numbers of a graph take the bits that they have, and its sets of files are sorted. -/
structure DependencyGraph.Fits (graph : DependencyGraph) : Prop where
  dependencies : Dependency.Fit graph.dependencies
  count : graph.dependencies.length < limit64
  methods : ∀ method ∈ graph.methods, method.Fits
  structures : ∀ entry ∈ graph.structures.entries, entry.Fits
  changes : ∀ change ∈ graph.changes, change.Fits

namespace Report

/-- What the members of a report say about a graph. -/
structure Carries (options : ReportOptions) (graph : DependencyGraph) (members : List (String × Json)) :
    Prop where
  distinct : (members.map (·.1)).Nodup
  dependencies : (members.lookup "dependencies").bind (list? Dependency.ofJson?) =
    some (graph.dependencies.filter options.filter.accepts)
  methods : (members.lookup "methods").bind (list? Method.ofJson?) =
    some (graph.methods.filter options.filter.acceptsMethod)
  structures : (members.lookup "structures").bind (list? StructureEntry.ofJson?) =
    some (graph.structures.entries.filter options.filter.acceptsStructure)
  total : ((members.lookup "metadata").bind (member? "total_dependencies")).bind count? =
    some (graph.dependencies.filter options.filter.accepts).length
  changes : (members.lookup "changes").isSome = true ↔ graph.changes ≠ []
  readsChanges : ∀ json, members.lookup "changes" = some json →
    json.list? DependencyChange.ofJson? = some graph.changes
  failures : (members.lookup "failures").isSome = true ↔ graph.failures ≠ []
  readsFailures : ∀ json, members.lookup "failures" = some json →
    json.list? FileFailure.ofJson? = some graph.failures

theorem fits_listMember {α : Type} {encode : α → Json} {depth : Nat}
    (each : ∀ value, fits depth (encode value)) (name : String) (values : List α) :
    membersFit (depth + 1) (listMember name encode values) := by
  cases values with
  | nil => rfl
  | cons value values => simp [listMember, membersFit, fits_ofList each]

theorem fits_toJson (options : ReportOptions) (graph : DependencyGraph) :
    fits maxDepth (toJson options graph) := by
  have dependencies := fits_ofList (Dependency.fits_toJson · 122) (options.filter.dependencies graph)
  have methods := fits_ofList (Method.fits_toJson · 123) (options.filter.methods graph)
  have structures := fits_ofList (StructureEntry.fits_toJson · 123) (options.filter.structures graph)
  have cycles := fits_ofList (fits_strings · 124) graph.cycles
  have changes := fits_listMember (DependencyChange.fits_toJson · 120) "changes" graph.changes
  have failures := fits_listMember (FileFailure.fits_toJson · 124) "failures" graph.failures
  have stats := graph.stats.fits_toJson 124
  simp only [toJson, maxDepth, fits, membersFit_append, membersFit, changes, failures, dependencies,
    methods, structures, cycles, Bool.and_true, Bool.true_and]
  cases options.stats <;> simp [membersFit, fits, nat, stats]

theorem membersAsRead_append (first second : List (String × Json)) :
    membersAsRead (first ++ second) = membersAsRead first ++ membersAsRead second := by
  induction first with
  | nil => rfl
  | cons member first ih => rw [List.cons_append, membersAsRead, membersAsRead, ih, List.cons_append]

theorem lookup_listMember {α : Type} (encode : α → Json) (name key : String) (values : List α) :
    (membersAsRead (listMember name encode values)).lookup key =
      if key = name ∧ values ≠ [] then some (asRead (.ofList encode values)) else none := by
  cases values with
  | nil => simp [listMember, membersAsRead]
  | cons value values =>
    by_cases same : key = name
    · simp [listMember, membersAsRead, same]
    · have differ : (key == name) = false := beq_eq_false_iff_ne.mpr same
      simp [listMember, membersAsRead, List.lookup_cons, same, differ]

/-- The members of a report as they are read. -/
def membersOf (options : ReportOptions) (graph : DependencyGraph) : List (String × Json) :=
  [("dependencies", asRead (.ofList Dependency.toJson (options.filter.dependencies graph))),
    ("methods", asRead (.ofList Method.toJson (options.filter.methods graph))),
    ("structures", asRead (.ofList StructureEntry.toJson (options.filter.structures graph))),
    ("cycles", asRead (.ofList .strings graph.cycles))] ++
  membersAsRead (listMember "changes" DependencyChange.toJson graph.changes) ++
  membersAsRead (listMember "failures" FileFailure.toJson graph.failures) ++
  (if options.stats then [("stats", asRead graph.stats.toJson)] else []) ++
  [("metadata", .obj [("format_version", .str "1.0"), ("generated_at", asRead (.nat options.generatedAt)),
    ("total_dependencies", asRead (.nat (options.filter.dependencies graph).length))])]

theorem asRead_toJson (options : ReportOptions) (graph : DependencyGraph) :
    asRead (toJson options graph) = .obj (membersOf options graph) := by
  rw [toJson, asRead, membersOf]
  simp only [membersAsRead_append]
  cases options.stats <;> simp [membersAsRead, asRead]

/-- The members that are not always there are found by their names alone. -/
theorem lookup_membersOf (options : ReportOptions) (graph : DependencyGraph) :
    (membersOf options graph).lookup "changes" = (if graph.changes = [] then none else
        some (asRead (.ofList DependencyChange.toJson graph.changes))) ∧
      (membersOf options graph).lookup "failures" = (if graph.failures = [] then none else
        some (asRead (.ofList FileFailure.toJson graph.failures))) ∧
      (membersOf options graph).lookup "metadata" = some (.obj [("format_version", .str "1.0"),
        ("generated_at", asRead (.nat options.generatedAt)),
        ("total_dependencies", asRead (.nat (options.filter.dependencies graph).length))]) := by
  have stats (key : String) (other : key ≠ "stats") :
      (if options.stats then [("stats", asRead graph.stats.toJson)] else []).lookup key = none := by
    cases options.stats <;> simp [List.lookup_cons, beq_eq_false_iff_ne.mpr other]
  simp [membersOf, List.lookup_append, lookup_listMember, stats, List.lookup_cons]

/-- A list that is left out when it is empty is there when it is not, and is then decoded. -/
theorem decodes_of_lookup {α : Type} {encode : α → Json} {decode : Json → Option α} {values : List α}
    {found : Option Json} (isFound : found = if values = [] then none else some (asRead (.ofList encode values)))
    (restores : ∀ value ∈ values, Restores encode decode value) :
    (found.isSome = true ↔ values ≠ []) ∧ ∀ json, found = some json → json.list? decode = some values := by
  subst isFound
  split
  case isTrue empty => simp [empty]
  case isFalse full =>
    refine ⟨by simp [full], ?_⟩
    rintro json ⟨⟩
    exact Restores.list restores

theorem carries_membersOf (options : ReportOptions) {graph : DependencyGraph} (fits : graph.Fits) :
    Carries options graph (membersOf options graph) := by
  obtain ⟨isChanges, isFailures, isMetadata⟩ := lookup_membersOf options graph
  have changes := decodes_of_lookup isChanges fun change member =>
    DependencyChange.restores (fits.changes change member)
  have failures := decodes_of_lookup isFailures fun failure _ => failure.restores
  constructor
  case distinct =>
    rw [membersOf]
    cases graph.changes <;> cases graph.failures <;> cases options.stats <;>
      simp [listMember, membersAsRead]
  case dependencies =>
    change (asRead (.ofList Dependency.toJson _)).list? Dependency.ofJson? = _
    exact Restores.list fun dependency member =>
      Dependency.restores (fits.dependencies dependency (List.mem_filter.mp member).1)
  case methods =>
    change (asRead (.ofList Method.toJson _)).list? Method.ofJson? = _
    exact Restores.list fun method member =>
      Method.restores (fits.methods method (List.mem_filter.mp member).1)
  case structures =>
    change (asRead (.ofList StructureEntry.toJson _)).list? StructureEntry.ofJson? = _
    exact Restores.list fun entry member =>
      StructureEntry.restores (fits.structures entry (List.mem_filter.mp member).1)
  case total =>
    have count : (options.filter.dependencies graph).length < limit64 :=
      Nat.lt_of_le_of_lt (List.length_filter_le _ _) fits.count
    rw [isMetadata]
    exact restores_natBelow count (Nat.le_refl _)
  case changes => exact changes.1
  case readsChanges => exact changes.2
  case failures => exact failures.1
  case readsFailures => exact failures.2

/-- The text of a report is an object that says of the graph all that the filter lets through. -/
theorem renderJson_loses_nothing {graph : DependencyGraph} (fits : graph.Fits) (options : ReportOptions) :
    ∃ members, Json.parse? (renderJson options graph) = some (.obj members) ∧
      Carries options graph members := by
  refine ⟨membersOf options graph, ?_, carries_membersOf options fits⟩
  rw [renderJson, parse?_pretty_line _ (fits_toJson options graph), asRead_toJson]

/-- A graph with quotes, line breaks and control characters in its names, and every kind of detail. -/
def thorny : DependencyGraph where
  dependencies :=
    [⟨⟨"a \"quoted\".rs"⟩, "std::\\io", .module, .rust, 1, none⟩,
      ⟨⟨"a \"quoted\".rs"⟩, "Line\nBreak", .struct, .rust, 2, some (.struct "trait" (some "\u0001"))⟩,
      ⟨⟨"b.rs"⟩, "tab\there", .method, .rust, 4294967295, some (.method none ["\"", "é"])⟩]
  methods :=
    [{ name := "tab\there", definedIn := ⟨"b.rs"⟩, line := 4294967295, dependencies := ["\"", "é"],
       references := [⟨"a/b.rs"⟩, ⟨"a b.rs"⟩] }]
  structures := ⟨[⟨"Line\nBreak", ⟨"a \"quoted\".rs"⟩, 2, "trait", some "\u0001", [⟨"b.rs"⟩]⟩]⟩
  changes := [⟨⟨"b.rs"⟩, [], [⟨⟨"b.rs"⟩, "tab\there", .method, .rust, 7, none⟩], ["\t"], [], ⟨4⟩, 1700000000⟩]
  failures := [⟨⟨"c\r.rs"⟩, "DEP200", "not \"UTF-8\""⟩]

theorem thorny_fits : thorny.Fits where
  dependencies := by simp [Dependency.Fit, thorny, limit32]
  count := by decide
  methods := by
    intro method member
    cases List.mem_singleton.mp member
    have sorted : Path.Before ⟨"a/b.rs"⟩ ⟨"a b.rs"⟩ :=
      show Ord.compare (α := Path) ⟨"a/b.rs"⟩ ⟨"a b.rs"⟩ = .lt by decide +kernel
    exact ⟨by decide, List.pairwise_pair.mpr sorted⟩
  structures := by
    intro entry member
    cases List.mem_singleton.mp member
    exact ⟨by decide, List.pairwise_singleton ..⟩
  changes := by
    intro change member
    cases List.mem_singleton.mp member
    exact ⟨by simp [Dependency.Fit], by simp [Dependency.Fit, limit32], by decide⟩

theorem renderJson_loses_nothing_thorny :
    thorny.Fits ∧ ∃ members,
      Json.parse? (renderJson { filter := { unwanted := ["quoted"] }, stats := true } thorny) =
        some (.obj members) ∧
      Carries { filter := { unwanted := ["quoted"] }, stats := true } thorny members :=
  ⟨thorny_fits, renderJson_loses_nothing thorny_fits _⟩

end Report

end DepAtlas
