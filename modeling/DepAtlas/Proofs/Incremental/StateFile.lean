import Mathlib.Data.Option.Basic
import DepAtlas.Proofs.FileSystem.Replacement
import DepAtlas.Proofs.Incremental.State

/-!
A state file is read as the state that was written. Every state whose numbers take the bits that they
have is decoded from its bytes, and the bytes can be read where they were written, unless a symbolic link
stands in the way.
-/

namespace DepAtlas

namespace Json

variable {α : Type}

/-- Whether a written value is decoded as itself. -/
def Restores (encode : α → Json) (decode : Json → Option α) (value : α) : Prop :=
  decode (asRead (encode value)) = some value

theorem asRead_nat {value : Nat} (small : value < limit64) : asRead (.nat value) = .nat value :=
  ofWritten_of_fits (by simp [signLimit64]) (by exact_mod_cast small)

theorem natBelow?_nat {limit value : Nat} (small : value < limit) :
    (nat value).natBelow? limit = some value := by
  simp [natBelow?, nat?, nat, int?, small]

theorem restores_natBelow {limit value : Nat} (small : value < limit) (held : limit ≤ limit64) :
    Restores .nat (natBelow? limit) value := by
  rw [Restores, asRead_nat (Nat.lt_of_lt_of_le small held)]
  exact natBelow?_nat small

theorem Restores.list {encode : α → Json} {decode : Json → Option α} {values : List α}
    (each : ∀ value ∈ values, Restores encode decode value) :
    Restores (ofList encode) (list? decode) values := by
  rw [Restores, asRead_ofList, list?, arr?, Option.bind_some]
  induction values with
  | nil => rfl
  | cons value values ih =>
    have first : decode (asRead (encode value)) = some value := each value List.mem_cons_self
    rw [List.map_cons, List.mapM_cons, first, ih fun other member => each other (List.mem_cons_of_mem _ member)]
    rfl

theorem Restores.absentable {encode : α → Json} {decode : Json → Option α} {record : Record}
    {name : String} {value : α} (restores : Restores encode decode value)
    (there : record.fields.lookup name = some (asRead (encode value)))
    (present : asRead (encode value) ≠ .null) : record.absentable name decode = some (some value) := by
  rw [Record.absentable, there]
  split
  case h_1 absent => cases absent
  case h_2 null => exact absurd (Option.some.inj null) present
  case h_3 json _ same =>
    rw [← Option.some.inj same, restores]
    rfl

theorem restores_strings (values : List String) : Restores strings strings? values :=
  Restores.list fun _ _ => rfl

end Json

open Json

theorem Detail.restores (detail : Detail) : Restores Detail.toJson Detail.ofJson? detail := by
  cases detail with
  | struct declaration base => cases base <;> rfl
  | method returnType calls =>
    have isCalls : (asRead (strings calls)).strings? = some calls := restores_strings calls
    have readable : (asRead (strings calls)).isReadable = true := by
      rw [strings, asRead_ofList]
      clear isCalls
      induction calls with
      | nil => rfl
      | cons name names ih => exact ih
    cases returnType with
    | none =>
      have written : asRead (Detail.method none calls).toJson =
          .obj [("kind", .str "method"), ("calls", asRead (strings calls))] := rfl
      have whole : isReadable (.obj [("kind", .str "method"), ("calls", asRead (strings calls))]) = true := by
        simp only [isReadable, haveReadableValues, readable, Bool.and_self]
      rw [Restores, written, ofJson?, whole]
      change ((asRead (strings calls)).strings?.bind fun names => some (Detail.method none names)) = _
      rw [isCalls]
      rfl
    | some result =>
      have written : asRead (Detail.method (some result) calls).toJson =
          .obj [("kind", .str "method"), ("return_type", .str result),
            ("calls", asRead (strings calls))] := rfl
      have whole : isReadable (.obj [("kind", .str "method"), ("return_type", .str result),
          ("calls", asRead (strings calls))]) = true := by
        simp only [isReadable, haveReadableValues, readable, Bool.and_self]
      rw [Restores, written, ofJson?, whole]
      change ((asRead (strings calls)).strings?.bind fun names =>
        some (Detail.method (some result) names)) = _
      rw [isCalls]
      rfl

theorem Dependency.restores {dependency : Dependency} (small : dependency.line < limit32) :
    Restores Dependency.toJson Dependency.ofJson? dependency := by
  obtain ⟨source, target, layer, language, line, detail⟩ := dependency
  have isLayer : Layer.ofJson? (asRead layer.toJson) = some layer := by cases layer <;> rfl
  have isLanguage : Language.ofJson? (asRead language.toJson) = some language := by
    cases language <;> rfl
  have isLine : (asRead (nat line)).natBelow? limit32 = some line :=
    restores_natBelow small (by decide)
  let fields : List (String × Json) := [("source", .str source.text), ("target", .str target),
    ("layer", asRead layer.toJson), ("language", asRead language.toJson), ("line", asRead (nat line))]
  suffices restored : ∀ more : List (String × Json),
      (record? ["source", "target", "layer", "language", "line", "detail"] (.obj (fields ++ more))) =
        some ⟨false, fields ++ more⟩ →
      (Record.mk false (fields ++ more)).absentable "detail" Detail.ofJson? = some detail →
      Dependency.ofJson? (.obj (fields ++ more)) =
        some ⟨source, target, layer, language, line, detail⟩ by
    cases detail with
    | none => exact restored [] rfl rfl
    | some detail =>
      refine restored [("detail", asRead detail.toJson)] rfl ?_
      exact detail.restores.absentable rfl detail.asRead_toJson_ne_null
  intro more isRecord isDetail
  rw [Dependency.ofJson?, isRecord]
  change ((Layer.ofJson? (asRead layer.toJson)).bind fun layer =>
    (Language.ofJson? (asRead language.toJson)).bind fun language =>
    ((asRead (nat line)).natBelow? limit32).bind fun line =>
    ((Record.mk false (fields ++ more)).absentable "detail" Detail.ofJson?).bind fun detail =>
    some (Dependency.mk source target layer language line detail)) = _
  rw [isLayer, isLanguage, isLine, isDetail]
  rfl

/-- The lines of dependencies take the bits that they have. -/
def Dependency.Fit (dependencies : List Dependency) : Prop :=
  ∀ dependency ∈ dependencies, dependency.line < limit32

/-- The parts of a stamp take the bits that they have. -/
structure Stamp.Fits (stamp : Stamp) : Prop where
  size : stamp.size < limit64
  seconds : fitsSigned64 stamp.seconds = true
  nanos : stamp.nanos < limit32

instance (stamp : Stamp) : Decidable stamp.Fits :=
  decidable_of_iff (stamp.size < limit64 ∧ fitsSigned64 stamp.seconds = true ∧ stamp.nanos < limit32)
    ⟨fun ⟨size, seconds, nanos⟩ => ⟨size, seconds, nanos⟩, fun fits =>
      ⟨fits.size, fits.seconds, fits.nanos⟩⟩

/-- The numbers of a fingerprint take the bits that they have. -/
structure Fingerprint.Fits (fingerprint : Fingerprint) : Prop where
  stamp : fingerprint.stamp.Fits
  lastAnalyzed : fingerprint.lastAnalyzed < limit64

namespace Fingerprint

theorem hashOfJson?_nat (hash : UInt64) : hashOfJson? (nat hash.toNat) = some hash := by
  have small : hash.toNat < limit64 := hash.toNat_lt
  rw [hashOfJson?, count?, natBelow?_nat small]
  exact congrArg some UInt64.ofNat_toNat

theorem ofWritten_seconds {seconds : Int} (fits : fitsSigned64 seconds = true) :
    ofWritten seconds = .int seconds := by
  simp only [fitsSigned64, Bool.and_eq_true, decide_eq_true_eq] at fits
  have held : (signLimit64 : Int) ≤ (limit64 : Int) := by decide
  exact ofWritten_of_fits fits.1 (by omega)

theorem restores {fingerprint : Fingerprint} (fits : fingerprint.Fits) :
    Restores Fingerprint.toJson Fingerprint.ofJson? fingerprint := by
  obtain ⟨path, ⟨size, seconds, nanos⟩, contentHash, dependencyHash, state, lastAnalyzed, movedFrom⟩ :=
    fingerprint
  obtain ⟨⟨sizeFits, secondsFit, nanosFit⟩, analyzedFits⟩ := fits
  let fields : List (String × Json) := [("path", .str path.text), ("size", nat size),
    ("mtime_secs", .int seconds), ("mtime_nanos", nat nanos), ("content_hash", nat contentHash.toNat),
    ("dependency_hash", nat dependencyHash.toNat), ("state", .str state.name),
    ("last_analyzed", nat lastAnalyzed)]
  let more := (movedFrom.map fun path : Path => ("moved_from", Json.str path.text)).toList
  have written : asRead (toJson ⟨path, ⟨size, seconds, nanos⟩, contentHash, dependencyHash, state,
      lastAnalyzed, movedFrom⟩) = .obj (fields ++ more) := by
    have held : limit32 ≤ limit64 := by decide
    cases movedFrom <;>
      simp only [toJson, Path.toJson, asRead, membersAsRead, List.cons_append, List.nil_append,
        Option.map_none, Option.map_some, Option.toList_none, Option.toList_some, asRead_nat sizeFits,
        asRead_nat (Nat.lt_of_lt_of_le nanosFit held), asRead_nat contentHash.toNat_lt,
        asRead_nat dependencyHash.toNat_lt, asRead_nat analyzedFits, fields, more,
        ofWritten_seconds secondsFit]
  have isRecord : objectRecord? fieldNames (.obj (fields ++ more)) = some ⟨false, fields ++ more⟩ := by
    cases movedFrom <;> rfl
  have readable : isReadable (.obj (fields ++ more)) = true := by
    cases movedFrom <;> rfl
  have isState : FileState.ofJson? (.str state.name) = some state := by cases state <;> rfl
  have isMoved : (Record.mk false (fields ++ more)).absentable "moved_from" Path.ofJson? =
      some movedFrom := by
    cases movedFrom <;> rfl
  rw [Restores, written, ofJson?, isRecord, readable]
  change ((nat size).count?.bind fun size =>
    (secondsOfJson? (.int seconds)).bind fun seconds =>
    ((nat nanos).natBelow? limit32).bind fun nanos =>
    (hashOfJson? (nat contentHash.toNat)).bind fun contentHash =>
    (hashOfJson? (nat dependencyHash.toNat)).bind fun dependencyHash =>
    (FileState.ofJson? (.str state.name)).bind fun state =>
    (nat lastAnalyzed).count?.bind fun lastAnalyzed =>
    ((Record.mk false (fields ++ more)).absentable "moved_from" Path.ofJson?).bind fun movedFrom =>
    some (Fingerprint.mk path ⟨size, seconds, nanos⟩ contentHash dependencyHash state lastAnalyzed
      movedFrom)) = _
  have isSeconds : secondsOfJson? (.int seconds) = some seconds := by simp [secondsOfJson?, int?, secondsFit]
  rw [count?, natBelow?_nat sizeFits, isSeconds, natBelow?_nat nanosFit, hashOfJson?_nat,
    hashOfJson?_nat, isState, count?, natBelow?_nat analyzedFits, isMoved]
  rfl

end Fingerprint

theorem SavedResult.restores {result : SavedResult} (fit : Dependency.Fit result.dependencies) :
    Restores SavedResult.toJson SavedResult.ofJson? result := by
  have isList : (asRead (ofList Dependency.toJson result.dependencies)).list? Dependency.ofJson? =
      some result.dependencies :=
    Restores.list fun dependency member => Dependency.restores (fit dependency member)
  change ((asRead (ofList Dependency.toJson result.dependencies)).list? Dependency.ofJson?).bind
    (fun dependencies => some (SavedResult.mk result.path dependencies)) = some result
  rw [isList]
  rfl

/-- The numbers of a state take the bits that they have, and its version is the one that is written. -/
structure SavedState.Fits (state : SavedState) : Prop where
  version : state.version = formatVersion
  fingerprints : ∀ fingerprint ∈ state.fingerprints, fingerprint.Fits
  results : ∀ result ∈ state.results, Dependency.Fit result.dependencies

section Decoding

variable {json : Json}

theorem Json.lt_of_natBelow? {limit value : Nat} (found : json.natBelow? limit = some value) :
    value < limit := by
  obtain ⟨-, small⟩ := Option.filter_eq_some_iff.mp found
  simpa using small

theorem Json.Record.exists_of_required {α : Type} {record : Record} {name : String}
    {decode : Json → Option α} {value : α} (found : record.required name decode = some value) :
    ∃ json, decode json = some value := by
  obtain ⟨json, -, decoded⟩ := Option.bind_eq_some_iff.mp found
  exact ⟨json, decoded⟩

theorem Json.forall_of_list? {α : Type} {decode : Json → Option α} {values : List α} {holds : α → Prop}
    (each : ∀ {json value}, decode json = some value → holds value)
    (found : json.list? decode = some values) : ∀ value ∈ values, holds value := by
  obtain ⟨items, -, mapped⟩ := Option.bind_eq_some_iff.mp found
  clear found
  induction items generalizing values with
  | nil =>
    cases mapped
    exact nofun
  | cons item items ih =>
    rw [List.mapM_cons] at mapped
    obtain ⟨first, isFirst, mapped⟩ := Option.bind_eq_some_iff.mp mapped
    obtain ⟨rest, isRest, mapped⟩ := Option.bind_eq_some_iff.mp mapped
    cases mapped
    intro value member
    rcases List.mem_cons.mp member with rfl | member
    · exact each isFirst
    · exact ih isRest value member

theorem Fingerprint.fits_of_ofJson? {fingerprint : Fingerprint}
    (found : Fingerprint.ofJson? json = some fingerprint) : fingerprint.Fits := by
  obtain ⟨_, -, found⟩ := Option.bind_eq_some_iff.mp found
  obtain ⟨record, -, found⟩ := Option.bind_eq_some_iff.mp found
  obtain ⟨path, -, found⟩ := Option.bind_eq_some_iff.mp found
  obtain ⟨size, isSize, found⟩ := Option.bind_eq_some_iff.mp found
  obtain ⟨seconds, isSeconds, found⟩ := Option.bind_eq_some_iff.mp found
  obtain ⟨nanos, isNanos, found⟩ := Option.bind_eq_some_iff.mp found
  obtain ⟨contentHash, -, found⟩ := Option.bind_eq_some_iff.mp found
  obtain ⟨dependencyHash, -, found⟩ := Option.bind_eq_some_iff.mp found
  obtain ⟨state, -, found⟩ := Option.bind_eq_some_iff.mp found
  obtain ⟨lastAnalyzed, isAnalyzed, found⟩ := Option.bind_eq_some_iff.mp found
  obtain ⟨movedFrom, -, found⟩ := Option.bind_eq_some_iff.mp found
  cases found
  obtain ⟨_, isSize⟩ := Record.exists_of_required isSize
  obtain ⟨_, isSeconds⟩ := Record.exists_of_required isSeconds
  obtain ⟨_, isNanos⟩ := Record.exists_of_required isNanos
  obtain ⟨_, isAnalyzed⟩ := Record.exists_of_required isAnalyzed
  exact ⟨⟨lt_of_natBelow? isSize, (Option.filter_eq_some_iff.mp isSeconds).2, lt_of_natBelow? isNanos⟩,
    lt_of_natBelow? isAnalyzed⟩

theorem Dependency.line_lt_of_ofJson? {dependency : Dependency}
    (found : Dependency.ofJson? json = some dependency) : dependency.line < limit32 := by
  obtain ⟨record, -, found⟩ := Option.bind_eq_some_iff.mp found
  obtain ⟨source, -, found⟩ := Option.bind_eq_some_iff.mp found
  obtain ⟨target, -, found⟩ := Option.bind_eq_some_iff.mp found
  obtain ⟨layer, -, found⟩ := Option.bind_eq_some_iff.mp found
  obtain ⟨language, -, found⟩ := Option.bind_eq_some_iff.mp found
  obtain ⟨line, isLine, found⟩ := Option.bind_eq_some_iff.mp found
  obtain ⟨detail, -, found⟩ := Option.bind_eq_some_iff.mp found
  cases found
  obtain ⟨_, isLine⟩ := Record.exists_of_required isLine
  exact lt_of_natBelow? isLine

theorem SavedResult.fit_of_ofJson? {result : SavedResult}
    (found : SavedResult.ofJson? json = some result) : Dependency.Fit result.dependencies := by
  unfold SavedResult.ofJson? at found
  obtain ⟨record, -, found⟩ := Option.bind_eq_some_iff.mp found
  obtain ⟨path, -, found⟩ := Option.bind_eq_some_iff.mp found
  obtain ⟨dependencies, areDependencies, found⟩ := Option.bind_eq_some_iff.mp found
  cases found
  obtain ⟨_, areDependencies⟩ := Record.exists_of_required areDependencies
  exact forall_of_list? Dependency.line_lt_of_ofJson? areDependencies

/-- The numbers of a state that can be read take the bits that they have. -/
theorem SavedState.fits_of_read {fs : FileSystem} {path : Path} {state : SavedState}
    (found : read fs path = .ok (some state)) : state.Fits := by
  obtain ⟨bytes, -, isDecoded, version⟩ := exists_of_read found
  obtain ⟨json, -, isState⟩ := Option.bind_eq_some_iff.mp isDecoded
  unfold SavedState.ofJson? at isState
  obtain ⟨record, -, isState⟩ := Option.bind_eq_some_iff.mp isState
  obtain ⟨number, -, isState⟩ := Option.bind_eq_some_iff.mp isState
  obtain ⟨fingerprints, areFingerprints, isState⟩ := Option.bind_eq_some_iff.mp isState
  obtain ⟨results, areResults, isState⟩ := Option.bind_eq_some_iff.mp isState
  cases isState
  obtain ⟨_, areFingerprints⟩ := Record.exists_of_required areFingerprints
  obtain ⟨_, areResults⟩ := Record.exists_of_required areResults
  exact ⟨version, forall_of_list? Fingerprint.fits_of_ofJson? areFingerprints,
    forall_of_list? SavedResult.fit_of_ofJson? areResults⟩

end Decoding

namespace SavedState

theorem restores {state : SavedState} (fits : state.Fits) :
    Restores SavedState.toJson SavedState.ofJson? state := by
  have isVersion : (asRead (nat state.version)).natBelow? limit32 = some state.version :=
    restores_natBelow (fits.version ▸ by decide) (by decide)
  have areFingerprints : (asRead (ofList Fingerprint.toJson state.fingerprints)).list?
      Fingerprint.ofJson? = some state.fingerprints :=
    Restores.list fun fingerprint member => Fingerprint.restores (fits.fingerprints fingerprint member)
  have areResults : (asRead (ofList SavedResult.toJson state.results)).list? SavedResult.ofJson? =
      some state.results :=
    Restores.list fun result member => SavedResult.restores (fits.results result member)
  change ((asRead (nat state.version)).natBelow? limit32).bind (fun version =>
    ((asRead (ofList Fingerprint.toJson state.fingerprints)).list? Fingerprint.ofJson?).bind
      fun fingerprints =>
    ((asRead (ofList SavedResult.toJson state.results)).list? SavedResult.ofJson?).bind fun results =>
    some (SavedState.mk version fingerprints results)) = some state
  rw [isVersion, areFingerprints, areResults]
  rfl

theorem decode?_encode_of_fits {state : SavedState} (fits : state.Fits) :
    decode? state.encode = some state :=
  state.decode?_encode.trans (restores fits)

variable {fs after : FileSystem} {path : Path} {state : SavedState} {time : Time}

/-- Once the directories that lead to it are there, neither a state file nor its draft is a symbolic
link. -/
structure Unlinked (fs : FileSystem) (path : Path) : Prop where
  file : (fs.createParents path).1.isLink path = false
  draft : (fs.createParents path).1.isLink (neighbour path "tmp") = false

/-- The steps of a state file that was written. -/
theorem exists_of_write (written : state.write fs path time = (after, .ok ())) :
    ∃ locked drafted,
      (fs.createParents path).1.ensureFile (neighbour path "lock") time = .ok locked ∧
      locked.write (neighbour path "tmp") state.encode time = .ok drafted ∧
      drafted.flush (neighbour path "tmp") = .ok () ∧
      drafted.rename (neighbour path "tmp") path = .ok after := by
  unfold write at written
  dsimp only at written
  split at written
  · cases written
  case h_2 grown _ created =>
  split at written
  · cases written
  case h_2 locked ensured =>
  split at written
  · cases written
  split at written
  · cases written
  case h_2 drafted isDrafted =>
  split at written
  · cases written
  · cases written
  case h_3 _ flushed renamed =>
    cases written
    rw [created]
    exact ⟨locked, drafted, ensured, isDrafted, flushed, renamed⟩

/-- What writing a state file does to a file system. -/
theorem exists_replaced (tree : fs.IsTree) (unlinked : Unlinked fs path)
    (written : state.write fs path time = (after, .ok ())) :
    ∃ locked place draftParent draftName goalParent goalName,
      (fs.createParents path).1.Ensured locked (neighbour path "lock") time place ∧
      (fs.createParents path).1.locate .keep (neighbour path "tmp") =
        .ok (.entry draftParent draftName false) ∧
      (fs.createParents path).1.locate .keep path = .ok (.entry goalParent goalName false) ∧
      (fs.createParents path).1.Replaced after (.file state.encode time) time place
        (draftParent ++ [draftName]) (goalParent ++ [goalName]) := by
  obtain ⟨locked, drafted, ensured, isDrafted, flushed, renamed⟩ := exists_of_write written
  obtain ⟨grown, -⟩ := FileSystem.createParents_spec tree path
  obtain ⟨place, draftParent, draftName, goalParent, goalName, replaced⟩ :=
    FileSystem.replaced_of_steps grown ensured isDrafted flushed renamed unlinked.draft unlinked.file
  exact ⟨locked, place, draftParent, draftName, goalParent, goalName, replaced⟩

theorem read_of_write (tree : fs.IsTree) (unlinked : Unlinked fs path)
    (written : state.write fs path time = (after, .ok ())) : after.read path = .ok state.encode := by
  obtain ⟨locked, place, draftParent, draftName, goalParent, goalName, -, -, located, replaced⟩ :=
    exists_replaced tree unlinked written
  rw [FileSystem.read, FileSystem.metadata, replaced.resolve located rfl]
  rfl

/-- A state that was written is the one that is read. -/
theorem read_write (tree : fs.IsTree) (unlinked : Unlinked fs path) (fits : state.Fits)
    (written : state.write fs path time = (after, .ok ())) : read after path = .ok (some state) :=
  read_of_encode (read_of_write tree unlinked written) (restores fits) fits.version

/-- A state file that was written can be written again: no link has come in its way. -/
theorem unlinked_of_write (tree : fs.IsTree) (unlinked : Unlinked fs path)
    (written : state.write fs path time = (after, .ok ())) : after.IsTree ∧ Unlinked after path := by
  obtain ⟨locked, place, draftParent, draftName, goalParent, goalName, -, atDraft, atGoal, replaced⟩ :=
    exists_replaced tree unlinked written
  obtain ⟨-, grows⟩ := FileSystem.createParents_spec replaced.tree path
  have noLink {parent : Location} {name : String} {path' : Path}
      (located : (fs.createParents path).1.locate .keep path' = .ok (.entry parent name false))
      (plain : ∀ target, after.nodeAt? (parent ++ [name]) ≠ some (.link target)) :
      (after.createParents path).1.isLink path' = false := by
    refine eq_false_of_ne_true fun link => ?_
    obtain ⟨holder, other, target, isPlace, looked⟩ := FileSystem.exists_of_isLink link
    cases (grows.retains.locate (replaced.retains.locate located)).symm.trans isPlace
    exact plain target (grows.retains.links (FileSystem.nodeAt?_of_lookup looked))
  refine ⟨replaced.tree, noLink atGoal fun target link => ?_, noLink atDraft fun target link => ?_⟩
  · rw [replaced.nodeAt?, if_pos rfl] at link
    cases link
  · rw [replaced.nodeAt?] at link
    split at link
    · cases link
    · rw [if_pos rfl] at link
      cases link

end SavedState

end DepAtlas
