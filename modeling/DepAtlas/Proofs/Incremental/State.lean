import DepAtlas.Incremental.State
import DepAtlas.Proofs.Json.ReadBack
import DepAtlas.Proofs.Text.Utf8

/-!
A state file holds the state that was saved: what its bytes are decoded as is what they were encoded
from.
-/

namespace DepAtlas

open Json

theorem FileState.readsBack : ReadsBack (fun state => .str state.name) FileState.ofJson? := by
  intro state read found
  cases state <;> exact (Option.some.inj found).symm

namespace Fingerprint

theorem readsBack_hash : ReadsBack (fun hash => .nat hash.toNat) hashOfJson? := by
  intro hash read found
  obtain ⟨value, isCount, rfl⟩ := Option.map_eq_some_iff.mp found
  rw [readsBack_natBelow _ _ _ isCount]
  exact UInt64.ofNat_toNat

theorem readsBack_seconds : ReadsBack .int secondsOfJson? := by
  intro seconds read found
  exact readsBack_int _ _ (Option.eq_some_of_filter_eq_some found)

theorem readsBack : ReadsBack Fingerprint.toJson Fingerprint.ofJson? := by
  intro fingerprint read found
  obtain ⟨path, ⟨size, seconds, nanos⟩, contentHash, dependencyHash, state, lastAnalyzed, movedFrom⟩ :=
    fingerprint
  obtain ⟨_, -, found⟩ := Option.bind_eq_some_iff.mp found
  obtain ⟨record, isRecord, found⟩ := Option.bind_eq_some_iff.mp found
  replace isRecord := Option.eq_some_of_filter_eq_some isRecord
  cases movedFrom
  all_goals
    cases isRecord
    obtain ⟨path', isPath, found⟩ := Option.bind_eq_some_iff.mp found
    obtain ⟨size', isSize, found⟩ := Option.bind_eq_some_iff.mp found
    obtain ⟨seconds', isSeconds, found⟩ := Option.bind_eq_some_iff.mp found
    obtain ⟨nanos', isNanos, found⟩ := Option.bind_eq_some_iff.mp found
    obtain ⟨contentHash', isContentHash, found⟩ := Option.bind_eq_some_iff.mp found
    obtain ⟨dependencyHash', isDependencyHash, found⟩ := Option.bind_eq_some_iff.mp found
    obtain ⟨state', isState, found⟩ := Option.bind_eq_some_iff.mp found
    obtain ⟨lastAnalyzed', isLastAnalyzed, found⟩ := Option.bind_eq_some_iff.mp found
    obtain ⟨movedFrom', isMovedFrom, found⟩ := Option.bind_eq_some_iff.mp found
    rw [← Option.some.inj found, Path.readsBack _ _ isPath, readsBack_natBelow _ _ _ isSize,
      readsBack_seconds _ _ isSeconds, readsBack_natBelow _ _ _ isNanos,
      readsBack_hash _ _ isContentHash, readsBack_hash _ _ isDependencyHash,
      FileState.readsBack _ _ isState, readsBack_natBelow _ _ _ isLastAnalyzed]
  · rw [← Option.some.inj isMovedFrom]
  · rw [← Option.some.inj isMovedFrom]

theorem fits_toJson (fingerprint : Fingerprint) (depth : Nat) :
    fits (depth + 1) fingerprint.toJson := by
  simp only [toJson, fits, membersFit_append, Bool.and_eq_true]
  cases fingerprint.movedFrom <;> simp [membersFit, Path.toJson, nat, fits]

end Fingerprint

namespace SavedResult

theorem readsBack : ReadsBack SavedResult.toJson SavedResult.ofJson? := by
  intro result read found
  unfold SavedResult.ofJson? at found
  obtain ⟨record, isRecord, found⟩ := Option.bind_eq_some_iff.mp found
  cases isRecord
  obtain ⟨path, isPath, found⟩ := Option.bind_eq_some_iff.mp found
  obtain ⟨dependencies, areDependencies, found⟩ := Option.bind_eq_some_iff.mp found
  rw [← Option.some.inj found, Path.readsBack _ _ isPath,
    Dependency.readsBack.list _ _ areDependencies]

theorem fits_toJson (result : SavedResult) (depth : Nat) : fits (depth + 5) result.toJson := by
  have dependencies : fits (depth + 4) (ofList Dependency.toJson result.dependencies) :=
    fits_ofList (Dependency.fits_toJson · depth) _
  simp [toJson, fits, membersFit, dependencies, Path.toJson]

end SavedResult

namespace SavedState

theorem readsBack : ReadsBack SavedState.toJson SavedState.ofJson? := by
  intro state read found
  unfold SavedState.ofJson? at found
  obtain ⟨record, isRecord, found⟩ := Option.bind_eq_some_iff.mp found
  cases isRecord
  obtain ⟨version, isVersion, found⟩ := Option.bind_eq_some_iff.mp found
  obtain ⟨fingerprints, areFingerprints, found⟩ := Option.bind_eq_some_iff.mp found
  obtain ⟨results, areResults, found⟩ := Option.bind_eq_some_iff.mp found
  rw [← Option.some.inj found, readsBack_natBelow _ _ _ isVersion,
    Fingerprint.readsBack.list _ _ areFingerprints, SavedResult.readsBack.list _ _ areResults]

theorem fits_toJson (state : SavedState) : fits maxDepth state.toJson := by
  have fingerprints : fits 126 (ofList Fingerprint.toJson state.fingerprints) :=
    fits_ofList (Fingerprint.fits_toJson · 124) _
  have results : fits 126 (ofList SavedResult.toJson state.results) :=
    fits_ofList (SavedResult.fits_toJson · 120) _
  simp [toJson, maxDepth, fits, membersFit, fingerprints, results, nat]

theorem decode?_encode (state : SavedState) :
    decode? state.encode = ofJson? state.toJson.asRead := by
  have input : Text.Utf8.decode none state.encode = inputOf (Json.write .pretty 0 state.toJson []) := by
    rw [encode, Text.Utf8.decode_toUTF8, pretty, String.toList_ofList]
    rfl
  rw [decode?, input, read?_write .pretty state.toJson state.fits_toJson]
  rfl

/-- What the bytes of a saved state are decoded as is that state. -/
theorem eq_of_decode?_encode {state read : SavedState} (found : decode? state.encode = some read) :
    read = state :=
  readsBack state read (state.decode?_encode.symm.trans found)

/-- A state that is read is what the bytes of its file are decoded as. -/
theorem exists_of_read {fs : FileSystem} {path : Path} {state : SavedState}
    (found : read fs path = .ok (some state)) :
    ∃ bytes, fs.read path = .ok bytes ∧ decode? bytes = some state ∧ state.version = formatVersion := by
  unfold read at found
  split at found
  · split at found <;> cases found
  case h_2 bytes readable =>
    split at found
    · cases found
    case h_2 decoded isDecoded =>
      split at found
      case isFalse => cases found
      case isTrue version =>
        cases found
        exact ⟨bytes, readable, isDecoded, eq_of_beq version⟩

theorem read_of_encode {fs : FileSystem} {path : Path} {state : SavedState}
    (stored : fs.read path = .ok state.encode) (decoded : ofJson? state.toJson.asRead = some state)
    (version : state.version = formatVersion) : read fs path = .ok (some state) := by
  simp only [read, stored, state.decode?_encode, decoded, version, beq_self_eq_true, if_true]

end SavedState

end DepAtlas
