import DepAtlas.Config.Load
import DepAtlas.Crawl

/-!
Settings that pass their check are good enough to set up a crawl: a cache and a pool can be made with
them, and some layer is extracted. Whether a layer is extracted is asked in two ways, by its name and by a
set of layers, and both give one answer for all settings.
-/

namespace DepAtlas

namespace Layer

theorem foldCase_eq_iff {word folded : String} :
    foldCase word = folded ↔ word.toList.map Char.toLower = folded.toList := by
  rw [← String.toList_inj, foldCase, String.toList_map]

theorem foldCase_name (layer : Layer) : foldCase layer.name = layer.name := by
  rw [foldCase_eq_iff]
  cases layer <;> decide

theorem ofName?_eq_some_iff {word : String} {layer : Layer} :
    ofName? word = some layer ↔ foldCase word = layer.name := by
  constructor
  · intro found
    have named := List.find?_some found
    exact (beq_iff_eq.mp named).symm
  · intro named
    rw [ofName?, named]
    cases layer <;> decide

end Layer

namespace LayerMask

theorem contains_insert (mask : LayerMask) (added layer : Layer) :
    (mask.insert added).contains layer = true ↔ mask.contains layer = true ∨ added = layer := by
  have both : (mask.bits ||| added.bit) &&& layer.bit =
      (mask.bits &&& layer.bit) ||| (added.bit &&& layer.bit) := by
    apply UInt8.toBitVec_inj.mp
    simp only [UInt8.toBitVec_and, UInt8.toBitVec_or, BitVec.and_or_distrib_right]
  have shared : added.bit &&& layer.bit ≠ 0 ↔ added = layer := by
    cases added <;> cases layer <;> decide
  simp only [contains, insert, both, bne_iff_ne, ne_eq, UInt8.or_eq_zero_iff]
  rw [Decidable.not_and_iff_not_or_not, ← ne_eq (added.bit &&& layer.bit), shared]

theorem contains_ofList (layers : List Layer) (layer : Layer) :
    (ofList layers).contains layer = true ↔ layer ∈ layers := by
  have grows (mask : LayerMask) :
      (layers.foldl insert mask).contains layer = true ↔ mask.contains layer = true ∨ layer ∈ layers := by
    induction layers generalizing mask with
    | nil => simp
    | cons first layers ih =>
      rw [List.foldl_cons, ih, contains_insert, List.mem_cons, or_assoc, eq_comm (a := first)]
  have empty : none.contains layer = false := by cases layer <;> decide
  rw [ofList, grows, empty]
  simp

/-- The set of layers with given names has those that are named, and every layer without names. -/
theorem contains_ofNames (names : List String) (layer : Layer) :
    (ofNames names).contains layer = true ↔
      names = [] ∨ ∃ name ∈ names, Layer.foldCase name = layer.name := by
  cases names with
  | nil =>
    have every : all.contains layer = true := by cases layer <;> decide
    simp [ofNames, every]
  | cons name names =>
    rw [ofNames, List.isEmpty_cons, if_neg Bool.false_ne_true, contains_ofList, List.mem_filterMap]
    simp only [Layer.ofName?_eq_some_iff, reduceCtorEq, false_or]

theorem isEmpty_eq_false_of_contains {mask : LayerMask} {layer : Layer}
    (contained : mask.contains layer = true) : mask.isEmpty = false := by
  apply eq_false_of_ne_true
  intro empty
  rw [isEmpty, beq_iff_eq] at empty
  rw [contains, empty, UInt8.zero_and] at contained
  exact absurd contained (by decide)

end LayerMask

namespace Config

/-- What the check of settings asks of them. -/
structure Valid (config : Config) : Prop where
  threads : ∀ threads, config.performance.threads = some threads → 0 < threads ∧ threads ≤ maxThreads
  queueCapacity : config.performance.queueCapacity ≠ some 0
  maxEntries : config.cache.maxEntries ≠ some 0
  maxBytes : config.cache.maxBytes ≠ some 0
  maxFileSize : config.scan.maxFileSize ≠ some 0
  layers : ∀ name ∈ config.analysis.layers, ∃ layer, Layer.ofName? name = some layer

theorem requirePositive_eq_ok_iff {field : String} {value : Option Nat} :
    requirePositive field value = .ok () ↔ value ≠ some 0 := by
  rw [requirePositive]
  by_cases zero : value = some 0 <;> simp [zero]

theorem requireLayers_eq_ok_iff {names : List String} :
    requireLayers names = .ok () ↔ ∀ name ∈ names, ∃ layer, Layer.ofName? name = some layer := by
  induction names with
  | nil => simp [requireLayers]
  | cons name names ih =>
    rw [requireLayers, List.forall_mem_cons, ← ih, ← Option.isSome_iff_exists]
    by_cases named : (Layer.ofName? name).isSome = true <;> simp [named]

theorem andThen_eq_ok_iff {first second : Except ConfigError Unit} :
    (first >>= fun _ => second) = .ok () ↔ first = .ok () ∧ second = .ok () := by
  cases first <;> simp [bind, Except.bind]

theorem validate_eq_ok_iff {config : Config} : config.validate = .ok () ↔ config.Valid := by
  have bounded :
      (config.performance.threads.any fun threads => threads == 0 || maxThreads < threads) = false ↔
      ∀ threads, config.performance.threads = some threads → 0 < threads ∧ threads ≤ maxThreads := by
    cases config.performance.threads <;> simp [Nat.pos_iff_ne_zero]
  unfold validate
  cases fits : config.performance.threads.any fun threads => threads == 0 || maxThreads < threads with
  | true =>
    have refused : ¬ config.Valid := fun valid => by
      rw [bounded.mpr valid.threads] at fits
      cases fits
    simp [refused, throw, throwThe, MonadExceptOf.throw, bind, Except.bind]
  | false =>
    simp only [Bool.false_eq_true, if_false, andThen_eq_ok_iff, requirePositive_eq_ok_iff,
      requireLayers_eq_ok_iff]
    constructor
    · rintro ⟨queueCapacity, maxEntries, maxBytes, maxFileSize, layers⟩
      exact ⟨bounded.mp fits, queueCapacity, maxEntries, maxBytes, maxFileSize, layers⟩
    · rintro ⟨-, queueCapacity, maxEntries, maxBytes, maxFileSize, layers⟩
      exact ⟨queueCapacity, maxEntries, maxBytes, maxFileSize, layers⟩

/-- Asking for a layer by its name is asking whether the set of layers has it. -/
theorem Analysis.layerEnabled_iff (analysis : Analysis) (layer : Layer) :
    analysis.layerEnabled layer.name = true ↔ (LayerMask.ofNames analysis.layers).contains layer = true := by
  rw [LayerMask.contains_ofNames, layerEnabled, Layer.foldCase_name]
  simp

theorem getD_pos {limit : Option Nat} {default : Nat} (nonzero : limit ≠ some 0)
    (positive : 0 < default) : 0 < limit.getD default := by
  cases limit with
  | none => exact positive
  | some limit =>
    rw [ne_eq, Option.some.injEq] at nonzero
    exact Nat.pos_of_ne_zero nonzero

namespace Valid

variable {config : Config}

theorem threadCount (valid : config.Valid) :
    0 < config.performance.threadCount ∧ config.performance.threadCount ≤ maxThreads := by
  rw [Performance.threadCount]
  cases set : config.performance.threads with
  | none => decide
  | some threads => exact valid.threads threads set

theorem entryLimit (valid : config.Valid) : 0 < config.cache.entryLimit :=
  getD_pos valid.maxEntries (by decide)

theorem byteLimit (valid : config.Valid) : 0 < config.cache.byteLimit :=
  getD_pos valid.maxBytes (by decide)

theorem exists_layer (valid : config.Valid) :
    ∃ layer, (LayerMask.ofNames config.analysis.layers).contains layer = true := by
  have known := valid.layers
  simp only [LayerMask.contains_ofNames]
  cases names : config.analysis.layers with
  | nil => exact ⟨.module, .inl rfl⟩
  | cons name names' =>
    obtain ⟨layer, named⟩ := known name (by simp [names])
    exact ⟨layer, .inr ⟨name, List.mem_cons_self, Layer.ofName?_eq_some_iff.mp named⟩⟩

end Valid

/-- Settings that pass their check never fail while a crawl is set up, whatever its roots and patterns,
and leave it some layer to extract; and of all settings, checked or not, the two ways to ask for a layer
give one answer. -/
theorem checked_sets_up (config : Config) :
    (config.validate = .ok () →
      FileCache.create config.cache.entryLimit config.cache.byteLimit =
          .ok { maxEntries := config.cache.entryLimit, maxBytes := config.cache.byteLimit } ∧
        (∀ (σ ρ : Type) (processor : Processor σ ρ) (state : σ) (schedule : Schedule),
          ∃ dispatcher, Dispatcher.create processor state schedule config.performance.threadCount
              config.performance.queueLimit = .ok dispatcher) ∧
        ∀ (roots : List Path) (patterns : PatternStore),
          ({ config, roots, patterns } : Crawler).layers.isEmpty = false) ∧
      ∀ layer : Layer, config.analysis.layerEnabled layer.name = true ↔
        (LayerMask.ofNames config.analysis.layers).contains layer = true := by
  refine ⟨fun passes => ?_, fun layer => config.analysis.layerEnabled_iff layer⟩
  have valid := validate_eq_ok_iff.mp passes
  refine ⟨?_, ?_, ?_⟩
  · have entries := valid.entryLimit
    have bytes := valid.byteLimit
    exact if_neg (by omega)
  · intro σ ρ processor state schedule
    have threads := valid.threadCount
    have agree : Pool.maxThreads = maxThreads := rfl
    rw [Dispatcher.create, Pool.create, if_neg (by omega)]
    exact ⟨_, rfl⟩
  · intro roots patterns
    obtain ⟨layer, contained⟩ := valid.exists_layer
    exact LayerMask.isEmpty_eq_false_of_contains contained

/-- The greatest number of workers and the least of everything else, with layers in letters of any
case. -/
def narrowest : Config where
  scan := { maxFileSize := some 1 }
  analysis := { layers := ["Module", "METHOD"] }
  performance := { threads := some 16, queueCapacity := some 1 }
  cache := { maxEntries := some 1, maxBytes := some 1 }

theorem narrowest_valid : narrowest.Valid where
  threads := by
    intro threads set
    cases set
    decide
  queueCapacity := by decide
  maxEntries := by decide
  maxBytes := by decide
  maxFileSize := by decide
  layers := by
    intro name member
    simp only [narrowest, List.mem_cons, List.not_mem_nil, or_false] at member
    rcases member with rfl | rfl
    · exact ⟨.module, Layer.ofName?_eq_some_iff.mpr (Layer.foldCase_eq_iff.mpr (by decide))⟩
    · exact ⟨.method, Layer.ofName?_eq_some_iff.mpr (Layer.foldCase_eq_iff.mpr (by decide))⟩

theorem checked_sets_up_narrowest :
    narrowest.validate = .ok () ∧
      FileCache.create 1 1 = .ok { maxEntries := 1, maxBytes := 1 } ∧
      (∃ dispatcher, Dispatcher.create (Processor.extraction .empty .filled .all) {} .eager 16 1 =
        .ok dispatcher) ∧
      ({ config := narrowest, roots := [], patterns := .filled } : Crawler).layers.isEmpty = false ∧
      (narrowest.analysis.layerEnabled "method" = true ↔
        (LayerMask.ofNames ["Module", "METHOD"]).contains .method = true) := by
  have passes : narrowest.validate = .ok () := validate_eq_ok_iff.mpr narrowest_valid
  obtain ⟨setUp, readings⟩ := checked_sets_up narrowest
  obtain ⟨cache, pool, layers⟩ := setUp passes
  exact ⟨passes, cache, pool _ _ _ _ _, layers _ _, readings .method⟩

end Config

end DepAtlas
