import Mathlib.Data.List.Induction
import Mathlib.Data.List.Perm.Subperm
import DepAtlas.Incremental.Coordinator
import DepAtlas.Proofs.Assoc
import DepAtlas.Proofs.Path.Sorting

/-!
Moves. New files are paired with deleted ones of the same content, one file after the other and each with
the first deletion that is left. Since only the digests of the contents count, no other way to pair them
finds more moves.
-/

namespace DepAtlas

theorem Assoc.put_eq_map {κ α : Type} [BEq κ] [EquivBEq κ] {entries : Assoc κ α}
    (distinct : Distinct entries) {key : κ} (known : has key entries = true) (value : α) :
    put key value entries =
      entries.map fun entry => (entry.1, if entry.1 == key then value else entry.2) := by
  induction entries with
  | nil => cases known
  | cons entry rest ih =>
    obtain ⟨apart, restDistinct⟩ := List.pairwise_cons.mp distinct
    rw [put, List.map_cons]
    cases here : entry.1 == key with
    | true =>
      rw [if_pos rfl, if_pos rfl]
      congr 1
      refine (List.map_congr_left fun other member => ?_).trans (List.map_id rest) |>.symm
      rw [← BEq.congr_right here, BEq.comm, apart other member]
      rfl
    | false =>
      rw [if_neg Bool.false_ne_true, if_neg Bool.false_ne_true, ih restDistinct]
      rw [has, List.any_cons, here, Bool.false_or] at known
      exact known

/-- Whether a file is new and has a content with this digest. -/
def Fingerprint.arrives (contentHash : UInt64) (known : Fingerprint) : Bool :=
  known.state == .new && known.contentHash == contentHash

theorem Fingerprint.arrives_iff {contentHash : UInt64} {known : Fingerprint} :
    known.arrives contentHash = true ↔ known.state = .new ∧ known.contentHash = contentHash := by
  rw [arrives, Bool.and_eq_true, beq_iff_eq, beq_iff_eq]

namespace FingerprintStore

variable {store : FingerprintStore} {pairs : List (Fingerprint × Path)} {path : Path}
  {old known : Fingerprint}

/-- The fingerprint of a path when these moves are noted. -/
def moved (pairs : List (Fingerprint × Path)) (path : Path) (known : Fingerprint) : Fingerprint :=
  match pairs.find? (·.2 == path) with
  | some (old, _) => { known with state := .moved, movedFrom := some old.path }
  | none => known

/-- A store when these moves are noted: the fingerprints of the paths that are paired become moved, and
all others stay. -/
def noteMoves (store : FingerprintStore) (pairs : List (Fingerprint × Path)) : FingerprintStore :=
  store.map fun entry => (entry.1, moved pairs entry.1 entry.2)

theorem moved_of_absent (absent : ∀ pair ∈ pairs, (pair.2 == path) = false) (known : Fingerprint) :
    moved pairs path known = known := by
  have none : pairs.find? (·.2 == path) = none :=
    List.find?_eq_none.mpr fun pair member => by rw [absent pair member]; exact Bool.false_ne_true
  rw [moved, none]

theorem distinct_noteMoves (distinct : Assoc.Distinct store) (pairs : List (Fingerprint × Path)) :
    Assoc.Distinct (store.noteMoves pairs) :=
  List.pairwise_map.mpr distinct

theorem get?_noteMoves (absent : ∀ pair ∈ pairs, (pair.2 == path) = false) :
    Assoc.get? path (store.noteMoves pairs) = store.get? path := by
  rw [Assoc.get?, noteMoves, List.find?_map, Option.map_map]
  refine Option.map_congr fun entry found => ?_
  have here : (entry.1 == path) = true :=
    List.find?_some (p := fun entry : Path × Fingerprint => entry.1 == path) found
  refine moved_of_absent (fun pair member => ?_) entry.2
  rw [BEq.congr_right here]
  exact absent pair member

theorem put_noteMoves (distinct : Assoc.Distinct store) (found : store.get? path = some known)
    (absent : ∀ pair ∈ pairs, (pair.2 == path) = false) (old : Fingerprint) :
    Assoc.put path { known with state := .moved, movedFrom := some old.path } (store.noteMoves pairs) =
      store.noteMoves (pairs ++ [(old, path)]) := by
  have tracked : Assoc.has path (store.noteMoves pairs) = true := by
    rw [Assoc.has_eq_isSome, get?_noteMoves absent, found]
    rfl
  rw [Assoc.put_eq_map (distinct_noteMoves distinct pairs) tracked, noteMoves, List.map_map, noteMoves]
  refine List.map_congr_left fun entry member => Prod.ext rfl ?_
  dsimp only [Function.comp_apply, moved]
  rw [List.find?_append, List.find?_singleton]
  cases here : entry.1 == path with
  | true =>
    have isKnown := distinct.get?_of_mem member
    rw [Assoc.get?_congr here, found] at isKnown
    cases isKnown
    have none : pairs.find? (·.2 == entry.1) = none := by
      refine List.find?_eq_none.mpr fun pair member => ?_
      rw [BEq.congr_right here, absent pair member]
      exact Bool.false_ne_true
    rw [none, BEq.comm, here]
    rfl
  | false =>
    rw [BEq.comm, here]
    cases pairs.find? (·.2 == entry.1) <;> rfl

theorem countP_paths (distinct : Assoc.Distinct store) (property : Fingerprint → Bool) :
    store.paths.countP (fun path => (store.get? path).any property) =
      store.countP (property ·.2) := by
  have perm : store.paths.Perm store.keys := List.mergeSort_perm _ _
  rw [perm.countP_eq, Assoc.keys, List.countP_map]
  refine List.countP_congr fun entry member => ?_
  rw [Function.comp_apply, distinct.get?_of_mem member]
  exact Iff.rfl

theorem apart_paths (distinct : Assoc.Distinct store) :
    store.paths.Pairwise fun a b => (a == b) = false := by
  have apart : store.keys.Pairwise fun a b => (id a == id b) = false := List.pairwise_map.mpr distinct
  exact apart_sortByPath apart

end FingerprintStore

namespace Coordinator

variable {coordinator : Coordinator} {pairs : List (Fingerprint × Path)} {rest : List Fingerprint}
  {done : List Path} {path : Path}

/-- Deletions and tracked paths that can be taken for moves: none is used twice, and each path is that of
a new file with the content of the deletion. -/
structure Pairing (coordinator : Coordinator) (pairs : List (Fingerprint × Path)) : Prop where
  deletions : (pairs.map (·.1)).Subperm coordinator.deleted
  paths : (pairs.map (·.2)).Subperm coordinator.store.paths
  alike : ∀ {pair}, pair ∈ pairs → ∃ known, coordinator.store.get? pair.2 = some known ∧
    known.state = .new ∧ known.contentHash = pair.1.contentHash

def moveEnds (pairs : List (Fingerprint × Path)) : List (Path × Path) :=
  pairs.map fun (old, path) => (old.path, path)

/-- A coordinator when these moves are noted and these deletions are left. -/
def noteMoves (coordinator : Coordinator) (pairs : List (Fingerprint × Path))
    (rest : List Fingerprint) : Coordinator :=
  { coordinator with
    store := coordinator.store.noteMoves pairs
    deleted := rest
    counts := { coordinator.counts with moved := coordinator.counts.moved + pairs.length } }

/-- The tracked path of a new file with this digest. -/
def arrivesAt (coordinator : Coordinator) (contentHash : UInt64) (path : Path) : Bool :=
  (coordinator.store.get? path).any (·.arrives contentHash)

theorem Pairing.arrivesAt (pairing : coordinator.Pairing pairs) (contentHash : UInt64)
    {pair : Fingerprint × Path} (member : pair ∈ pairs) :
    coordinator.arrivesAt contentHash pair.2 = (pair.1.contentHash == contentHash) := by
  obtain ⟨known, found, isNew, same⟩ := pairing.alike member
  rw [Coordinator.arrivesAt, found, Option.any_some, Fingerprint.arrives, isNew, same]
  rfl

theorem Pairing.countP_eq (pairing : coordinator.Pairing pairs) (contentHash : UInt64) :
    pairs.countP (·.1.contentHash == contentHash) =
      (pairs.map (·.2)).countP (coordinator.arrivesAt contentHash) := by
  rw [List.countP_map]
  refine List.countP_congr fun pair member => ?_
  rw [Function.comp_apply, pairing.arrivesAt contentHash member]

/-- No pairing has more pairs with a digest than there are new files and deletions with it. -/
theorem Pairing.countP_le (pairing : coordinator.Pairing pairs)
    (distinct : Assoc.Distinct coordinator.store) (contentHash : UInt64) :
    pairs.countP (·.1.contentHash == contentHash) ≤
      min (coordinator.store.countP (·.2.arrives contentHash))
        (coordinator.deleted.countP (·.contentHash == contentHash)) := by
  refine Nat.le_min.mpr ⟨?_, ?_⟩
  · rw [pairing.countP_eq, ← FingerprintStore.countP_paths distinct]
    exact pairing.paths.countP_le _
  · have within := pairing.deletions.countP_le (·.contentHash == contentHash)
    rwa [List.countP_map] at within

/-- What holds when the moves to the first tracked paths are noted. -/
structure Noted (coordinator : Coordinator) (done : List Path) (pairs : List (Fingerprint × Path))
    (rest : List Fingerprint) : Prop where
  paths : (pairs.map (·.2)).Sublist done
  deletions : coordinator.deleted.Perm (pairs.map (·.1) ++ rest)
  order : rest.Sublist coordinator.deleted
  alike : ∀ {pair}, pair ∈ pairs → ∃ known, coordinator.store.get? pair.2 = some known ∧
    known.state = .new ∧ known.contentHash = pair.1.contentHash
  /-- A new file is left over only when no deletion of its content is left over. -/
  complete : ∀ {path known}, path ∈ done → path ∉ pairs.map (·.2) →
    coordinator.store.get? path = some known → known.state = .new →
    ∀ old ∈ rest, old.contentHash ≠ known.contentHash

theorem Noted.nil (coordinator : Coordinator) : coordinator.Noted [] [] coordinator.deleted where
  paths := .refl []
  deletions := .refl _
  order := .refl _
  alike member := nomatch member
  complete member := nomatch member

theorem Noted.skip (noted : coordinator.Noted done pairs rest)
    (settled : ∀ {known}, coordinator.store.get? path = some known → known.state = .new →
      ∀ old ∈ rest, old.contentHash ≠ known.contentHash) :
    coordinator.Noted (done ++ [path]) pairs rest where
  paths := noted.paths.trans (List.sublist_append_left ..)
  deletions := noted.deletions
  order := noted.order
  alike := noted.alike
  complete member unpaired found isNew := by
    rcases List.mem_append.mp member with member | member
    · exact noted.complete member unpaired found isNew
    · cases List.mem_singleton.mp member
      exact settled found isNew

theorem Noted.pair (noted : coordinator.Noted done pairs rest) {known old : Fingerprint} {index : Nat}
    (found : coordinator.store.get? path = some known) (isNew : known.state = .new)
    (isOld : rest[index]? = some old) (same : old.contentHash = known.contentHash) :
    coordinator.Noted (done ++ [path]) (pairs ++ [(old, path)]) (rest.eraseIdx index) := by
  obtain ⟨bound, rfl⟩ := List.getElem?_eq_some_iff.mp isOld
  constructor
  case paths =>
    rw [List.map_append]
    exact noted.paths.append_right [path]
  case deletions =>
    rw [List.map_append, List.append_assoc]
    exact noted.deletions.trans ((List.getElem_cons_eraseIdx_perm bound).symm.append_left _)
  case order => exact (List.eraseIdx_sublist rest index).trans noted.order
  case alike =>
    intro pair member
    rcases List.mem_append.mp member with member | member
    · exact noted.alike member
    · cases List.mem_singleton.mp member
      exact ⟨known, found, isNew, same.symm⟩
  case complete =>
    intro other otherKnown member unpaired isOther otherNew left stays
    rw [List.map_append, List.mem_append, not_or] at unpaired
    rcases List.mem_append.mp member with member | member
    · exact noted.complete member unpaired.1 isOther otherNew left (List.mem_of_mem_eraseIdx stays)
    · exact absurd member unpaired.2

/-- A tracked path that was not reached before is paired with the first deletion of its content, or is
left over for want of one. -/
theorem Noted.step (distinct : Assoc.Distinct coordinator.store)
    (noted : coordinator.Noted done pairs rest) (fresh : ∀ other ∈ done, (other == path) = false) :
    ∃ more left, coordinator.Noted (done ++ [path]) more left ∧
      detectMove (coordinator.noteMoves pairs rest, moveEnds pairs) path =
        (coordinator.noteMoves more left, moveEnds more) := by
  have absent : ∀ pair ∈ pairs, (pair.2 == path) = false := fun pair member =>
    fresh pair.2 (noted.paths.subset (List.mem_map_of_mem member))
  have looked : (coordinator.noteMoves pairs rest).store.get? path = coordinator.store.get? path :=
    FingerprintStore.get?_noteMoves absent
  unfold detectMove
  dsimp only
  rw [looked]
  split
  case h_1 untracked =>
    exact ⟨pairs, rest, noted.skip fun found => (nomatch untracked.symm.trans found), rfl⟩
  case h_2 known found =>
    have settled (unpaired : known.state = .new → ∀ old ∈ rest, old.contentHash ≠ known.contentHash) :
        coordinator.Noted (done ++ [path]) pairs rest := by
      refine noted.skip fun isKnown => ?_
      cases found.symm.trans isKnown
      exact unpaired
    split
    case isTrue isOther =>
      exact ⟨pairs, rest, settled fun isNew => absurd isNew (bne_iff_ne.mp isOther), rfl⟩
    case isFalse isNew =>
      have isNew : known.state = .new := by simpa using isNew
      split
      case h_1 none =>
        refine ⟨pairs, rest, settled fun _ old member => ?_, rfl⟩
        simpa using List.findIdx?_eq_none_iff.mp none old member
      case h_2 index first =>
        obtain ⟨bound, same, -⟩ := List.findIdx?_eq_some_iff_getElem.mp first
        split
        case h_1 missing =>
          exact absurd (List.getElem?_eq_none_iff.mp missing) (Nat.not_le.mpr bound)
        case h_2 old isOld =>
          have same : old.contentHash = known.contentHash := by
            rw [← (List.getElem?_eq_some_iff.mp isOld).2]
            exact beq_iff_eq.mp same
          refine ⟨pairs ++ [(old, path)], rest.eraseIdx index, noted.pair found isNew isOld same, ?_⟩
          rw [noteMoves, noteMoves, ← FingerprintStore.put_noteMoves distinct found absent,
            List.length_append, moveEnds, moveEnds, List.map_append]
          rfl

theorem exists_noted (distinct : Assoc.Distinct coordinator.store)
    (apart : done.Pairwise fun a b => (a == b) = false) :
    ∃ pairs rest, coordinator.Noted done pairs rest ∧
      done.foldl detectMove (coordinator, []) = (coordinator.noteMoves pairs rest, moveEnds pairs) := by
  induction done using List.reverseRecOn with
  | nil =>
    refine ⟨[], coordinator.deleted, .nil coordinator, Prod.ext ?_ rfl⟩
    have unchanged : coordinator.store.noteMoves [] = coordinator.store := List.map_id _
    rw [noteMoves, unchanged]
    rfl
  | append_singleton done path ih =>
    obtain ⟨before, -, fresh⟩ := List.pairwise_append.mp apart
    obtain ⟨pairs, rest, noted, result⟩ := ih before
    rw [List.foldl_append, List.foldl_cons, List.foldl_nil, result]
    exact noted.step distinct fun other member => fresh other member path List.mem_cons_self

namespace Noted

variable (noted : coordinator.Noted coordinator.store.paths pairs rest)

include noted

theorem pairing : coordinator.Pairing pairs where
  deletions := (List.sublist_append_left _ rest).subperm.trans noted.deletions.symm.subperm
  paths := noted.paths.subperm
  alike := noted.alike

/-- With each digest there are as many moves as new files, or as many as deletions. -/
theorem countP_eq (distinct : Assoc.Distinct coordinator.store) (contentHash : UInt64) :
    pairs.countP (·.1.contentHash == contentHash) =
      min (coordinator.store.countP (·.2.arrives contentHash))
        (coordinator.deleted.countP (·.contentHash == contentHash)) := by
  refine Nat.le_antisymm (noted.pairing.countP_le distinct contentHash) ?_
  by_cases left : ∃ old ∈ rest, old.contentHash = contentHash
  · -- A deletion with this digest is left over, so every new file with it is paired.
    obtain ⟨old, stays, isOld⟩ := left
    refine Nat.le_trans (Nat.min_le_left _ _) ?_
    rw [← FingerprintStore.countP_paths distinct, noted.pairing.countP_eq, List.countP_eq_length_filter,
      List.countP_eq_length_filter]
    have nodup : coordinator.store.paths.Nodup :=
      (FingerprintStore.apart_paths distinct).imp fun apart same => by simp [same] at apart
    refine (List.subperm_of_subset (nodup.filter _) fun path member => ?_).length_le
    obtain ⟨member, arrives⟩ := List.mem_filter.mp member
    obtain ⟨known, found, arrivesThere⟩ := (Option.any_eq_true _ _).mp arrives
    refine List.mem_filter.mpr ⟨?_, arrives⟩
    by_contra unpaired
    obtain ⟨isNew, isHash⟩ := Fingerprint.arrives_iff.mp arrivesThere
    exact noted.complete member unpaired found isNew old stays (isOld.trans isHash.symm)
  · refine Nat.le_trans (Nat.min_le_right _ _) ?_
    have none : rest.countP (·.contentHash == contentHash) = 0 :=
      List.countP_eq_zero.mpr fun old member same => left ⟨old, member, beq_iff_eq.mp same⟩
    rw [noted.deletions.countP_eq, List.countP_append, none, List.countP_map]
    exact Nat.le_refl _

theorem length_le (distinct : Assoc.Distinct coordinator.store)
    {other : List (Fingerprint × Path)} (pairing : coordinator.Pairing other) :
    other.length ≤ pairs.length := by
  -- The digests of the other pairing are among those of this one, with repetitions.
  have within : ∀ contentHash ∈ other.map (·.1.contentHash),
      (other.map (·.1.contentHash)).count contentHash ≤
        (pairs.map (·.1.contentHash)).count contentHash := by
    intro contentHash _
    have counted := Nat.le_trans (pairing.countP_le distinct contentHash)
      (Nat.le_of_eq (noted.countP_eq distinct contentHash).symm)
    rwa [List.count_eq_countP, List.count_eq_countP, List.countP_map, List.countP_map]
  simpa using (List.subperm_ext_iff.mpr within).length_le

end Noted

/-- Moves are a maximum matching of new files and deletions with the same digests. -/
theorem detectMoves_maximum (coordinator : Coordinator) (distinct : Assoc.Distinct coordinator.store) :
    ∃ pairs rest, coordinator.Pairing pairs ∧
      (∀ contentHash, pairs.countP (·.1.contentHash == contentHash) =
        min (coordinator.store.countP (·.2.arrives contentHash))
          (coordinator.deleted.countP (·.contentHash == contentHash))) ∧
      (∀ {other}, coordinator.Pairing other → other.length ≤ pairs.length) ∧
      coordinator.deleted.Perm (pairs.map (·.1) ++ rest) ∧ rest.Sublist coordinator.deleted ∧
      coordinator.detectMoves = (coordinator.noteMoves pairs rest, moveEnds pairs) := by
  obtain ⟨pairs, rest, noted, result⟩ :=
    exists_noted distinct (FingerprintStore.apart_paths distinct)
  exact ⟨pairs, rest, noted.pairing, noted.countP_eq distinct, noted.length_le distinct,
    noted.deletions, noted.order, result⟩

/-- What is remembered of an empty file. -/
def emptyFile (path : String) (state : FileState) : Fingerprint where
  path := ⟨path⟩
  stamp := default
  contentHash := Digest.ofString ""
  dependencyHash := Digest.ofStrings []
  state := state
  lastAnalyzed := 0

/-- Three empty files, two of them new, when three others are gone. -/
def emptyFiles : Coordinator where
  patterns := {}
  store := FingerprintStore.ofList [emptyFile "z" .new, emptyFile "y" .unchanged, emptyFile "x" .new]
  deleted := [emptyFile "c" .deleted, emptyFile "b" .deleted, emptyFile "a" .deleted]

theorem detectMoves_maximum_empty :
    Assoc.Distinct emptyFiles.store ∧
      ∃ pairs rest, emptyFiles.Pairing pairs ∧ pairs.length = 2 ∧ rest.length = 1 ∧
        emptyFiles.detectMoves = (emptyFiles.noteMoves pairs rest, moveEnds pairs) := by
  have distinct : Assoc.Distinct emptyFiles.store := by
    unfold Assoc.Distinct
    decide +kernel
  refine ⟨distinct, ?_⟩
  obtain ⟨pairs, rest, pairing, counts, -, perm, -, result⟩ := detectMoves_maximum emptyFiles distinct
  have two : pairs.countP (·.1.contentHash == Digest.ofString "") = 2 := by
    rw [counts]
    decide +kernel
  have every : ∀ old ∈ emptyFiles.deleted, old.contentHash == Digest.ofString "" := by decide +kernel
  have all : pairs.countP (·.1.contentHash == Digest.ofString "") = pairs.length :=
    List.countP_eq_length.mpr fun pair member =>
      every pair.1 (pairing.deletions.subset (List.mem_map_of_mem member))
  have three : 3 = pairs.length + rest.length := by
    simpa using (show emptyFiles.deleted.length = 3 from rfl).symm.trans perm.length_eq
  exact ⟨pairs, rest, pairing, by omega, by omega, result⟩

end Coordinator

end DepAtlas
