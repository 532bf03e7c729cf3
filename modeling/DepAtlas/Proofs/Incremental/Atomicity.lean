import DepAtlas.Proofs.FileSystem.Places
import DepAtlas.Proofs.Incremental.Footprint

/-!
Writing a state file is all or nothing. Either the new state stands at the place of the file and the draft
is gone, or what stands there is what stood there before; besides lock and draft nothing else changes, once
the directories that lead to the file are there.
-/

namespace DepAtlas

namespace FileSystem

variable {fs after locked : FileSystem} {location : Location} {node : Node} {path : Path} {time : Time}
  {place : Option Location}

theorem Ensured.kept (ensured : Ensured fs after path time place)
    (found : fs.nodeAt? location = some node) : after.nodeAt? location = some node := by
  rw [ensured.nodeAt?, if_neg]
  · exact found
  · intro isPlace
    cases (ensured.absent location isPlace).symm.trans found

/-- A file that has to be created is created at the place of its path. -/
theorem Ensured.place?_eq (ensured : Ensured fs after path time place) (tree : fs.IsTree)
    (plain : fs.isLink path = false) (isPlace : place = some location) :
    fs.place? .keep path = some location := by
  obtain ⟨parent, name, rfl, located, -⟩ := ensured.located location isPlace
  exact place?_of_locate (locate_keep_of_bare tree located plain)

theorem Ensured.overlaid (ensured : Ensured fs after path time place) :
    Overlaid fs after (place = some ·) where
  retains := ensured.retains
  retained := ensured.retained
  same untouched := by rw [ensured.nodeAt?, if_neg untouched]
  leaf touched found := by cases (ensured.absent _ touched).symm.trans found

/-- What is created and what is written next to it. -/
theorem Ensured.overlaid_put (ensured : Ensured fs locked path time place) {parent : Location} {name : String}
    (writable : locked.Writable parent name) (content : Bytes) :
    Overlaid fs (locked.put (parent ++ [name]) (.file content time))
      fun location => place = some location ∨ location = parent ++ [name] where
  retains := ensured.retains.trans (.put writable.free rfl)
  retained := (Retains.of_put writable.free rfl).trans ensured.retained
  same untouched := by
    obtain ⟨notPlace, notHere⟩ := not_or.mp untouched
    rw [nodeAt?_put, if_neg (Ne.symm notHere), ensured.nodeAt?, if_neg notPlace]
  leaf touched found := by
    rcases touched with isPlace | rfl
    · cases (ensured.absent _ isPlace).symm.trans found
    · exact (Bool.or_eq_false_iff.mp (writable.free (ensured.kept found))).1

theorem Retains.read (retains : Retains fs after) (tree : fs.IsTree) (grown : after.IsTree)
    (kept : ∀ {location node}, fs.nodeAt? location = some node → after.nodeAt? location = some node)
    {bytes : Bytes} (readable : fs.read path = .ok bytes) : after.read path = .ok bytes := by
  obtain ⟨found, resolved, -⟩ := exists_resolve_of_read readable
  have still := kept (nodeAt?_of_resolve tree resolved)
  rw [read_congr resolved (retains.resolve grown resolved still id), readable]

theorem Retains.exists? (retains : Retains fs after) (tree : fs.IsTree) (grown : after.IsTree)
    (reads : (∃ bytes, fs.read path = .ok bytes) → ∃ bytes, after.read path = .ok bytes)
    (there : fs.exists? path = true) : after.exists? path = true := by
  obtain ⟨⟨location, node⟩, resolved⟩ := exists?_iff.mp there
  cases kind : node.isDirectory with
  | true =>
    have kept := retains.ways (nodeAt?_of_resolve tree resolved) (by rw [kind]; rfl)
    exact exists?_iff.mpr ⟨_, retains.resolve grown resolved kept id⟩
  | false =>
    obtain ⟨location, node, resolved, -⟩ := readable_iff.mp (reads (readable_iff.mpr ⟨_, _, resolved, kind⟩))
    exact exists?_iff.mpr ⟨_, resolved⟩

section Exchange

variable {content : Bytes} {lock : Option Location} {draft parent : Location} {name : String}
  (exchanged : Exchanged fs after (.file content time) time lock draft (parent ++ [name]))
include exchanged

theorem Exchanged.ways_of_drop (tree : fs.IsTree) : Ways (fs.drop (parent ++ [name])) after where
  current := exchanged.current
  ways {location node} found isWay := by
    have apart : location ≠ parent ++ [name] := by
      rintro rfl
      rw [nodeAt?_drop tree.distinct, if_pos (isPrefixOf_self _)] at found
      cases found
    rw [nodeAt?_drop_of_ne tree exchanged.free apart] at found
    exact exchanged.nodeAt?_eq found isWay apart

theorem Exchanged.ways_to_drop (tree : fs.IsTree) : Ways after (fs.drop (parent ++ [name])) where
  current := exchanged.current.symm
  ways found isWay := by
    obtain ⟨apart, found⟩ := exchanged.of_nodeAt? rfl found isWay
    rwa [nodeAt?_drop_of_ne tree exchanged.free apart]

/-- What was moved to the place of a path is read there exactly if the way to it does not pass over what
stood there before. -/
theorem Exchanged.read_iff (tree : fs.IsTree)
    (located : fs.locate .keep path = .ok (.entry parent name false)) :
    after.read path = .ok content ↔
      (fs.drop (parent ++ [name])).place? .keep path = some (parent ++ [name]) := by
  constructor
  · intro readable
    obtain ⟨found, resolved, leaf⟩ := exists_resolve_of_read readable
    obtain ⟨holder, other, isHere, -⟩ := exists_locate_of_resolve resolved leaf
    have dropped := (exchanged.ways_to_drop tree).locate_keep isHere
    cases located.symm.trans ((ways_drop tree _).locate_keep dropped)
    exact place?_of_locate dropped
  · intro placed
    obtain ⟨holder, other, slashed, -, dropped⟩ := exists_of_place? placed
    cases located.symm.trans ((ways_drop tree _).locate_keep dropped)
    have stored : after.nodeAt? (parent ++ [name]) = some (.file content time) := by
      rw [exchanged.nodeAt?, if_pos rfl]
    have looked := lookup_eq_ok_iff.mpr ⟨(exchanged.tree.named stored).2, stored⟩
    rw [read, metadata, resolve_of_locate ((exchanged.ways_of_drop tree).locate_keep dropped) looked rfl]
    rfl

/-- Where no link stood, the way is not over it. -/
theorem Exchanged.place?_drop (tree : fs.IsTree)
    (located : fs.locate .keep path = .ok (.entry parent name false)) (short : name.utf8ByteSize ≤ longestName)
    (plain : fs.isLink path = false) :
    (fs.drop (parent ++ [name])).place? .keep path = some (parent ++ [name]) := by
  have ways : Ways fs (fs.drop (parent ++ [name])) := by
    refine ⟨rfl, fun {location node} found isWay => ?_⟩
    rw [nodeAt?_drop_of_ne tree exchanged.free]
    · exact found
    rintro rfl
    rw [isLink_of_locate located (lookup_eq_ok_iff.mpr ⟨short, found⟩)] at plain
    cases node with
    | directory => exact exchanged.free found
    | link => cases plain
    | file | device => cases isWay
  exact ways.place? (place?_of_locate located)

theorem Exchanged.exists?_draft {draftParent : Location} {draftName : String}
    (isDraft : draft = draftParent ++ [draftName]) (apart : draft ≠ parent ++ [name])
    (located : fs.locate .keep path = .ok (.entry draftParent draftName false)) :
    after.nodeAt? draft = none ∧ after.exists? path = false := by
  have gone : after.nodeAt? draft = none := by rw [exchanged.nodeAt?, if_neg apart, if_pos rfl]
  refine ⟨gone, eq_false_of_ne_true fun there => ?_⟩
  have ways : Ways after fs :=
    ⟨exchanged.current.symm, fun found isWay => (exchanged.of_nodeAt? rfl found isWay).2⟩
  -- No link stands at the place of the draft, so a path to it could lead only there.
  obtain ⟨⟨location, node⟩, resolved⟩ := exists?_iff.mp there
  obtain ⟨reached, followed, settled⟩ := find_eq_ok_iff.mp resolved
  obtain ⟨kept, isKept, stops⟩ := exists_locate_keep followed
  cases located.symm.trans (ways.locate_keep isKept)
  rw [isDraft] at gone
  cases stops with
  | here =>
    have isPlace := fst_eq_entry_of_settle settled
    have stands := nodeAt?_of_resolve exchanged.tree resolved
    rw [isPlace, gone] at stands
    cases stands
  | link _ found => cases gone.symm.trans found

end Exchange

end FileSystem

namespace SavedState

open FileSystem (Grows Overlaid Exchanged)

variable {fs grown after : FileSystem} {path : Path} {state : SavedState} {time : Time} {bytes : Bytes}
  {location : Location}

/-- No neighbour has the place of the file itself. -/
theorem place?_neighbour_ne (tree : fs.IsTree) {ending : String} (long : 2 ≤ ending.toList.length)
    (whole : '/' ∉ ending.toList) (placed : fs.place? .keep path = some location) :
    fs.place? .keep (neighbour path ending) ≠ some location := by
  intro beside
  obtain ⟨parent, name, slashed, rfl, located⟩ := FileSystem.exists_of_place? placed
  obtain ⟨_, other, _, same, isNeighbour⟩ := FileSystem.exists_of_place? beside
  have isName := eq_of_locate_neighbour long whole isNeighbour
  obtain ⟨rfl⟩ := List.singleton_inj.mp (List.append_inj' same rfl).2
  rw [FileSystem.fileName?_of_locate tree located] at isName
  have length := congrArg (List.length ∘ String.toList) isName
  simp [String.toList_append] at length

/-- Neither the lock nor the draft of a state file is a symbolic link. -/
structure PlainNeighbours (fs : FileSystem) (path : Path) : Prop where
  lock : fs.isLink (neighbour path "lock") = false
  draft : fs.isLink (neighbour path "tmp") = false

/-- How far a failed write comes: the lock cannot be created, nothing is drafted, or what is drafted cannot
be moved. -/
theorem exists_of_write_error {error : StateError}
    (failed : state.write fs path time = (after, .error error)) :
    after = (fs.createParents path).1 ∨
      (fs.createParents path).1.ensureFile (neighbour path "lock") time = .ok after ∨
      ∃ locked, (fs.createParents path).1.ensureFile (neighbour path "lock") time = .ok locked ∧
        locked.write (neighbour path "tmp") state.encode time = .ok after ∧
        (after.flush (neighbour path "tmp") = .ok () →
          ∃ failure, after.rename (neighbour path "tmp") path = .error failure) := by
  unfold write at failed
  dsimp only at failed
  split at failed
  case h_1 created =>
    cases failed
    exact .inl (congrArg Prod.fst created).symm
  case h_2 grown _ created =>
  rw [created]
  split at failed
  · cases failed
    exact .inl rfl
  case h_2 locked ensured =>
  split at failed
  · cases failed
    exact .inr (.inl ensured)
  split at failed
  · cases failed
    exact .inr (.inl ensured)
  case h_2 drafted isDrafted =>
  refine .inr (.inr ⟨locked, ensured, ?_⟩)
  split at failed
  case h_1 flushed =>
    cases failed
    exact ⟨isDrafted, fun rests => nomatch flushed.symm.trans rests⟩
  case h_2 renamed =>
    cases failed
    exact ⟨isDrafted, fun _ => ⟨_, renamed⟩⟩
  case h_3 => cases failed

/-- What a write that is given up leaves: nothing is put anywhere but at the places of lock and draft, and what
could be read can still be read. -/
structure Abandoned (grown after : FileSystem) (path : Path) (touched : Location → Prop) : Prop where
  tree : after.IsTree
  overlaid : Overlaid grown after touched
  places : ∀ {location}, touched location → grown.place? .keep (neighbour path "lock") = some location ∨
    grown.place? .keep (neighbour path "tmp") = some location
  read : ∀ {bytes}, grown.read path = .ok bytes → after.read path = .ok bytes

theorem Abandoned.nothing (tree : grown.IsTree) (path : Path) : Abandoned grown grown path fun _ => False where
  tree := tree
  overlaid := ⟨.refl _, .refl _, fun _ => rfl, nofun⟩
  places := nofun
  read := id

section Neighbours

variable {locked : FileSystem} {place : Option Location} (tree : grown.IsTree)
  (ensured : grown.Ensured locked (neighbour path "lock") time place)
  (plain : PlainNeighbours grown path)
include tree ensured plain

theorem abandoned_locked : Abandoned grown locked path (place = some ·) where
  tree := ensured.tree
  overlaid := ensured.overlaid
  places isPlace := .inl (ensured.place?_eq tree plain.lock isPlace)
  read := ensured.retains.read tree ensured.tree ensured.kept

/-- A draft stays only if it cannot be moved, and then nothing could be read at the path. -/
theorem abandoned_drafted {parent : Location} {name : String} (writable : locked.Writable parent name)
    (located : locked.locate .followBare (neighbour path "tmp") = .ok (.entry parent name false))
    (failed : ∃ failure, (locked.put (parent ++ [name]) (.file bytes time)).rename
      (neighbour path "tmp") path = .error failure) :
    Abandoned grown (locked.put (parent ++ [name]) (.file bytes time)) path
      fun location => place = some location ∨ location = parent ++ [name] := by
  have overlaid := ensured.overlaid_put writable bytes
  have isTree := writable.isTree_put ensured.tree (.file bytes time)
  have atDraft : grown.locate .keep (neighbour path "tmp") = .ok (.entry parent name false) := by
    refine ensured.retained.locate (FileSystem.locate_keep_of_bare ensured.tree located ?_)
    exact eq_false_of_ne_true fun link => nomatch (ensured.retained.isLink link).symm.trans plain.draft
  have stored : (locked.put (parent ++ [name]) (.file bytes time)).nodeAt? (parent ++ [name]) =
      some (.file bytes time) := by rw [FileSystem.nodeAt?_put, if_pos rfl]
  refine ⟨isTree, overlaid, ?_, fun {old} readable => ?_⟩
  · rintro location (isLock | rfl)
    · exact .inl (ensured.place?_eq tree plain.lock isLock)
    · exact .inr (FileSystem.place?_of_locate atDraft)
  · -- What can be read is no directory, so that the draft could be moved there.
    have still := overlaid.still_readable tree isTree (fun {location} touched => ?_) ⟨old, readable⟩
    · obtain ⟨_, renamed⟩ :=
        FileSystem.exists_rename isTree (overlaid.retains.locate atDraft) stored rfl still
      obtain ⟨failure, failed⟩ := failed
      cases renamed.symm.trans failed
    · by_cases here : location = parent ++ [name]
      · rw [here]
        exact ⟨_, stored, rfl⟩
      · have isLock := touched.resolve_right here
        refine ⟨.file [] time, ?_, rfl⟩
        rw [FileSystem.nodeAt?_put, if_neg (Ne.symm here), ensured.nodeAt?, if_pos isLock]

end Neighbours

theorem exists_abandoned {error : StateError} (tree : fs.IsTree)
    (plain : PlainNeighbours (fs.createParents path).1 path)
    (failed : state.write fs path time = (after, .error error)) :
    ∃ touched, Abandoned (fs.createParents path).1 after path touched := by
  obtain ⟨grown, -⟩ := FileSystem.createParents_spec tree path
  rcases exists_of_write_error failed with rfl | isLocked | ⟨locked, isLocked, written, unmoved⟩
  · exact ⟨_, .nothing grown path⟩
  · obtain ⟨place, ensured⟩ := FileSystem.exists_ensured grown isLocked
    exact ⟨_, abandoned_locked grown ensured plain⟩
  · obtain ⟨place, ensured⟩ := FileSystem.exists_ensured grown isLocked
    rcases FileSystem.write_cases ensured.tree written with
      ⟨rfl, -⟩ | ⟨parent, name, writable, located, rfl, flushed⟩
    · exact ⟨_, abandoned_locked grown ensured plain⟩
    · exact ⟨_, abandoned_drafted grown ensured plain writable located (unmoved flushed)⟩

/-- What stands when a state was written: the new bytes at the place of the path, and nothing at that of
the draft. They are read unless the way to the path passes over a link that stood there. -/
structure Holds (grown after : FileSystem) (path : Path) (bytes : Bytes) (time : Time)
    (place : Location) : Prop where
  placed : grown.place? .keep path = some place
  stored : after.nodeAt? place = some (.file bytes time)
  read : after.read path = .ok bytes ↔ (grown.drop place).place? .keep path = some place
  plain : grown.isLink path = false → after.read path = .ok bytes
  noDraft : after.exists? (neighbour path "tmp") = false
  cleared : ∀ {location}, grown.place? .keep (neighbour path "tmp") = some location →
    after.nodeAt? location = none

/-- What stands when a state could not be written: what stood at the place of the path. What could be read
is read, and nothing else is, unless the path is a link that dangles at the place of lock or draft. -/
structure Keeps (grown after : FileSystem) (path : Path) : Prop where
  stays : ∀ {location}, grown.place? .keep path = some location →
    after.nodeAt? location = grown.nodeAt? location
  read : ∀ {bytes}, grown.read path = .ok bytes → after.read path = .ok bytes
  absent : (grown.isLink path = true → ∀ {location}, grown.Dangles path location →
      grown.place? .keep (neighbour path "lock") ≠ some location ∧
        grown.place? .keep (neighbour path "tmp") ≠ some location) →
    after.exists? path = grown.exists? path ∧
      ∀ bytes, after.read path = .ok bytes ↔ grown.read path = .ok bytes

/-- What becomes of a file system with the directories that lead to a path when a state is written there. -/
structure Atomic (grown after : FileSystem) (path : Path) (bytes : Bytes) (time : Time)
    (outcome : Except StateError Unit) : Prop where
  elsewhere : ∀ {location}, grown.place? .keep path ≠ some location →
    grown.place? .keep (neighbour path "lock") ≠ some location →
    grown.place? .keep (neighbour path "tmp") ≠ some location →
    after.nodeAt? location = grown.nodeAt? location
  written : outcome = .ok () → ∃ place, Holds grown after path bytes time place
  failed : ∀ {error}, outcome = .error error → Keeps grown after path

theorem Abandoned.keeps {touched : Location → Prop} (abandoned : Abandoned grown after path touched)
    (tree : grown.IsTree) : Keeps grown after path := by
  have apart {location : Location} (placed : grown.place? .keep path = some location) :
      ¬ touched location := by
    intro isTouched
    rcases abandoned.places isTouched with beside | beside
    · exact place?_neighbour_ne tree (by decide) (by decide) placed beside
    · exact place?_neighbour_ne tree (by decide) (by decide) placed beside
  refine ⟨fun placed => abandoned.overlaid.same (apart placed), abandoned.read, fun leads => ?_⟩
  have readable : (∃ bytes, after.read path = .ok bytes) → ∃ bytes, grown.read path = .ok bytes := by
    refine abandoned.overlaid.readable tree abandoned.tree apart fun link location dangles isTouched => ?_
    obtain ⟨notLock, notDraft⟩ := leads link dangles
    exact (abandoned.places isTouched).elim notLock notDraft
  refine ⟨Bool.eq_iff_iff.mpr ⟨?_, ?_⟩, fun bytes => ⟨fun isRead => ?_, abandoned.read⟩⟩
  · exact abandoned.overlaid.retained.exists? abandoned.tree tree readable
  · refine abandoned.overlaid.retains.exists? tree abandoned.tree fun ⟨bytes, isRead⟩ => ?_
    exact ⟨bytes, abandoned.read isRead⟩
  · obtain ⟨old, wasRead⟩ := readable ⟨bytes, isRead⟩
    cases isRead.symm.trans (abandoned.read wasRead)
    exact wasRead

theorem holds_of_exchanged (tree : grown.IsTree) {lock : Option Location}
    {draftParent goalParent : Location} {draftName goalName : String}
    (atDraft : grown.locate .keep (neighbour path "tmp") = .ok (.entry draftParent draftName false))
    (atGoal : grown.locate .keep path = .ok (.entry goalParent goalName false))
    (short : goalName.utf8ByteSize ≤ FileSystem.longestName)
    (exchanged : Exchanged grown after (.file bytes time) time lock (draftParent ++ [draftName])
      (goalParent ++ [goalName])) :
    Holds grown after path bytes time (goalParent ++ [goalName]) := by
  have isGoal := FileSystem.place?_of_locate atGoal
  have isDraft := FileSystem.place?_of_locate atDraft
  have apart : draftParent ++ [draftName] ≠ goalParent ++ [goalName] := by
    intro same
    exact place?_neighbour_ne tree (by decide) (by decide) isGoal (same ▸ isDraft)
  have reads := exchanged.read_iff tree atGoal
  obtain ⟨gone, noDraft⟩ := exchanged.exists?_draft rfl apart atDraft
  refine ⟨isGoal, ?_, reads, fun plain => reads.mpr (exchanged.place?_drop tree atGoal short plain),
    noDraft, fun beside => ?_⟩
  · rw [exchanged.nodeAt?, if_pos rfl]
  · cases isDraft.symm.trans beside
    exact gone

/-- A state file that is a link to another file. -/
def aliased : FileSystem where
  nodes := [([], .directory), (["s.json"], .link ⟨"kept.json"⟩),
    (["kept.json"], .file "old".toUTF8.toList {})]
  current := []

/-- The path passes over the link that it names. -/
def ownLink : FileSystem where
  nodes := [([], .directory), (["s"], .link ⟨"."⟩)]
  current := []

/-- The path leads somewhere as soon as a directory in it is there. -/
def upward : FileSystem where
  nodes := [([], .directory), (["s.json"], .file "old".toUTF8.toList {}), (["s.json.tmp"], .directory)]
  current := []

/-- The state file is a link to where its lock is to be. -/
def lockLink : FileSystem where
  nodes := [([], .directory), (["s.json"], .link ⟨"s.json.lock"⟩), (["s.json.tmp"], .directory)]
  current := []

/-- The draft is a link, but no path leads to it before the directories are there. -/
def lateLink : FileSystem where
  nodes := [([], .directory), (["s.json.tmp"], .link ⟨"other"⟩)]
  current := []

end SavedState

end DepAtlas
