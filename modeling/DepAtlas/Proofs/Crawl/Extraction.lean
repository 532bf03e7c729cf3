import DepAtlas.Crawl
import DepAtlas.Proofs.CallGraph.Fresh
import DepAtlas.Proofs.Dispatch.Outcomes
import DepAtlas.Proofs.Incremental.Evidence

/-!
Plain extraction, file by file. While the files stay as they are, the cache hands out what they hold, so
that the outcome of a file depends on the file alone; and the method table is that of the files extracted,
taken in as they came.
-/

namespace DepAtlas

section Reading

variable {fs : FileSystem} {path : Path} {stamp : Stamp} {content : String}

/-- The text of a file, as extraction reads it without a cache. -/
def textOf (fs : FileSystem) (path : Path) : Except CacheError String :=
  (FileCache.readStamped fs path).map (·.1)

theorem textOf_eq_ok_iff : textOf fs path = .ok content ↔ fs.readText path = .ok content := by
  constructor
  · intro found
    obtain ⟨⟨text, stamp⟩, read, rfl⟩ := exists_of_map_eq_ok found
    exact (FileCache.readStamped_eq_ok_iff.mp read).2
  · intro readable
    obtain ⟨node, isNode⟩ := exists_metadata_of_readText readable
    have stamped : Stamp.read fs path = .ok (.ofNode node) := by
      rw [Stamp.read, isNode]
      rfl
    rw [textOf, FileCache.readStamped_eq_ok_iff.mpr ⟨stamped, readable⟩]
    rfl

theorem truthful_create {crawler : Crawler} {files : Option FileCache}
    (created : crawler.createCache = .ok files) : Truthful fs files := by
  simp only [Crawler.createCache] at created
  split at created
  · obtain ⟨cache, made, rfl⟩ := exists_of_map_eq_ok created
    rintro _ ⟨⟩ entry member
    rw [FileCache.entries_of_create made] at member
    cases member
  · cases created
    exact fun _ none => nomatch none

/-- Reading through the cache gives what the file has, and leaves the methods alone. -/
theorem readContent_spec {state : ExtractionState} (truthful : Truthful fs state.files) (path : Path) :
    (state.readContent fs path).2 = textOf fs path ∧
      Truthful fs (state.readContent fs path).1.files ∧
      (state.readContent fs path).1.methods = state.methods := by
  obtain ⟨table, held⟩ := state
  cases held with
  | none => exact ⟨rfl, truthful, rfl⟩
  | some cache =>
    have genuine := truthful cache rfl
    have present := List.mem_singleton_self fs
    refine ⟨genuine.readThrough_eq (stampsTell_singleton fs) present path, ?_, rfl⟩
    rintro _ ⟨⟩
    exact genuine.readThrough present path

theorem readContents_spec {files : Option FileCache} (truthful : Truthful fs files)
    (paths : List Path) :
    (Crawler.readContents fs paths files).2 =
      paths.filterMap fun path => (textOf fs path).toOption.map fun content => (path, content) := by
  induction paths generalizing files with
  | nil => rfl
  | cons path rest ih =>
    obtain ⟨answer, kept, -⟩ := @readContent_spec fs { files } truthful path
    rw [filterMap_cons_toList, ← answer, ← ih kept]
    rfl

end Reading

section Answers

variable (fs : FileSystem) (patterns : PatternStore) (layers : LayerMask)

/-- The outcome of plain extraction for a file. -/
def answerOf (path : Path) (language : Language) : Except Failure ProcessedFile :=
  match textOf fs path with
  | .error cause => .error (.cache cause)
  | .ok content =>
    match extractAs patterns language path content layers with
    | .error cause => .error (.extract cause)
    | .ok dependencies => .ok { dependencies }

/-- What successful results contribute to the method table. -/
def contributions (results : List WorkResult) : Assoc Path (List Dependency) :=
  results.filterMap fun result =>
    result.outcome.toOption.map fun file => (result.item.path, file.dependencies)

/-- The state after some results: the cache is truthful, the table is that of the results so far, and
each outcome is that of its file. -/
structure Extracted (state : ExtractionState) (done : List WorkResult) : Prop where
  truthful : Truthful fs state.files
  methods : state.methods = .fresh (contributions done)
  outcomes : ∀ result ∈ done,
    result.outcome = answerOf fs patterns layers result.item.path result.item.language

variable {fs patterns layers}

theorem extracted_begin {files : Option FileCache} (truthful : Truthful fs files) :
    Extracted fs patterns layers { files } [] where
  truthful := truthful
  methods := rfl
  outcomes _ member := by cases member

theorem contributions_append (done : List WorkResult) (result : WorkResult) :
    contributions (done ++ [result]) = contributions done ++ contributions [result] :=
  List.filterMap_append

theorem contributions_failed (done : List WorkResult) (item : WorkItem) (cause : Failure) :
    contributions (done ++ [item.result (.failed cause)]) = contributions done :=
  (contributions_append done _).trans (List.append_nil _)

theorem fresh_append (files : Assoc Path (List Dependency)) (path : Path)
    (dependencies : List Dependency) :
    MethodTable.fresh (files ++ [(path, dependencies)]) =
      ((MethodTable.fresh files).ingest path dependencies).1 := by
  rw [MethodTable.fresh, List.map_append, MethodTable.run, List.foldl_append]
  rfl

theorem Extracted.add {state next : ExtractionState} {done : List WorkResult} {result : WorkResult}
    (extracted : Extracted fs patterns layers state done) (truthful : Truthful fs next.files)
    (methods : next.methods = .fresh (contributions (done ++ [result])))
    (outcome : result.outcome =
      answerOf fs patterns layers result.item.path result.item.language) :
    Extracted fs patterns layers next (done ++ [result]) := by
  refine ⟨truthful, methods, fun other member => ?_⟩
  rcases List.mem_append.mp member with old | new
  · exact extracted.outcomes other old
  · rw [List.mem_singleton.mp new]
    exact outcome

theorem keeps_extraction :
    (Processor.extraction fs patterns layers).Keeps (Extracted fs patterns layers) fun item content =>
      textOf fs item.path = .ok content where
  fails := by
    intro state next item verdict done extracted prepared
    obtain ⟨answer, truthful, methods⟩ := readContent_spec extracted.truthful item.path
    cases read : state.readContent fs item.path with
    | mk after reply =>
      simp only [Processor.extraction, read] at prepared
      rw [read] at answer truthful methods
      cases reply with
      | ok content => cases prepared
      | error cause =>
        cases prepared
        refine extracted.add truthful ?_ ?_
        · rw [contributions_failed]
          exact methods.trans extracted.methods
        · simp only [answerOf, WorkItem.result, ← answer]
          rfl
  prepares := by
    intro state next item content done extracted prepared
    obtain ⟨answer, truthful, methods⟩ := readContent_spec extracted.truthful item.path
    cases read : state.readContent fs item.path with
    | mk after reply =>
      simp only [Processor.extraction, read] at prepared
      rw [read] at answer truthful methods
      cases reply with
      | error cause => cases prepared
      | ok text =>
        cases prepared
        exact ⟨⟨truthful, methods.trans extracted.methods, extracted.outcomes⟩, answer.symm⟩
  completes := by
    intro state next item content verdict done extracted fit completed
    simp only [Processor.extraction] at completed
    cases extraction : extractAs patterns item.language item.path content layers with
    | error cause =>
      rw [extraction] at completed
      cases completed
      refine extracted.add extracted.truthful ?_ ?_
      · rw [contributions_failed]
        exact extracted.methods
      · simp only [answerOf, WorkItem.result, fit, extraction]
        rfl
    | ok dependencies =>
      rw [extraction] at completed
      cases completed
      refine extracted.add extracted.truthful ?_ ?_
      · rw [contributions_append]
        exact (congrArg (fun table => (MethodTable.ingest table item.path dependencies).1)
          extracted.methods).trans (fresh_append _ _ _).symm
      · simp only [answerOf, WorkItem.result, fit, extraction]
        rfl

end Answers

end DepAtlas
