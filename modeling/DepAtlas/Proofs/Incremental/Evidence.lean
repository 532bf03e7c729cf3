import DepAtlas.Proofs.Extract.Spelling
import DepAtlas.Proofs.FileCache
import DepAtlas.Proofs.FileSystem.Spelling
import DepAtlas.Proofs.Incremental.Workspace

/-!
What a remembered stamp, digest or result says about the file now: at one of the moments the file was
read with it, and stamps and digests tell contents apart.
-/

namespace DepAtlas

/-- At some moment a path, in some spelling, led to a file with this stamp and this content. -/
def Witnessed (moments : List FileSystem) (path : Path) (stamp : Stamp) (content : String) : Prop :=
  ∃ fs ∈ moments, ∃ spelling, (spelling == path) = true ∧
    Stamp.read fs spelling = .ok stamp ∧ fs.readText spelling = .ok content

/-- A path with the same stamp at two moments has the same content then, or can be read at neither. -/
def StampsTell (moments : List FileSystem) : Prop :=
  ∀ first ∈ moments, ∀ second ∈ moments, ∀ path stamp, Stamp.read first path = .ok stamp →
    Stamp.read second path = .ok stamp → (first.readText path).toOption = (second.readText path).toOption

section Witnesses

variable {moments later : List FileSystem} {fs : FileSystem} {path other : Path} {stamp : Stamp}
  {content : String}

theorem Witnessed.mono (witnessed : Witnessed moments path stamp content) (kept : moments ⊆ later) :
    Witnessed later path stamp content := by
  obtain ⟨earlier, member, rest⟩ := witnessed
  exact ⟨earlier, kept member, rest⟩

theorem Witnessed.congr (witnessed : Witnessed moments path stamp content)
    (same : (path == other) = true) : Witnessed moments other stamp content := by
  obtain ⟨earlier, member, spelling, spelled, found⟩ := witnessed
  exact ⟨earlier, member, spelling, BEq.trans spelled same, found⟩

theorem Witnessed.occurs (witnessed : Witnessed moments path stamp content) :
    Occurs moments content := by
  obtain ⟨earlier, member, spelling, -, -, readable⟩ := witnessed
  exact ⟨earlier, member, spelling, readable⟩

theorem Stable.mono (stable : Stable later) (kept : moments ⊆ later) : Stable moments where
  stamps first isFirst second isSecond := stable.stamps first (kept isFirst) second (kept isSecond)
  digests content other := by
    rintro ⟨first, isFirst, foundFirst⟩ ⟨second, isSecond, foundSecond⟩
    exact stable.digests content other ⟨first, kept isFirst, foundFirst⟩
      ⟨second, kept isSecond, foundSecond⟩

theorem exists_read_of_readText (readable : fs.readText path = .ok content) :
    ∃ bytes, fs.read path = .ok bytes := by
  obtain ⟨bytes, found, -⟩ := exists_of_map_eq_ok readable
  exact ⟨bytes, found⟩

theorem exists_metadata_of_readText (readable : fs.readText path = .ok content) :
    ∃ node, fs.metadata path = .ok node := by
  obtain ⟨bytes, read⟩ := exists_read_of_readText readable
  obtain ⟨found, resolved, -⟩ := FileSystem.exists_resolve_of_read read
  refine ⟨found.2, ?_⟩
  rw [FileSystem.metadata, resolved]
  rfl

theorem readText_congr {later : FileSystem} (same : fs.metadata path = later.metadata other) :
    fs.readText path = later.readText other := by
  unfold FileSystem.readText FileSystem.read
  rw [same]

theorem Stable.stampsTell (stable : Stable moments) : StampsTell moments :=
  stable.stamps

theorem stampsTell_singleton (fs : FileSystem) : StampsTell [fs] := by
  intro first isFirst second isSecond path stamp _ _
  rw [List.mem_singleton.mp isFirst, List.mem_singleton.mp isSecond]

/-- A file that still has a stamp has the content that was read with it. -/
theorem StampsTell.readText_of_witnessed (tells : StampsTell moments) (present : fs ∈ moments)
    (witnessed : Witnessed moments path stamp content) (stamped : Stamp.read fs path = .ok stamp) :
    fs.readText path = .ok content := by
  obtain ⟨earlier, member, spelling, same, stampedThen, readThen⟩ := witnessed
  obtain ⟨bytes, readable⟩ := exists_read_of_readText readThen
  obtain ⟨node, isNode, isStamp⟩ := exists_of_map_eq_ok stamped
  obtain ⟨found, resolved, isFound⟩ := exists_of_map_eq_ok isNode
  have agree : fs.metadata spelling = fs.metadata path := by
    rw [FileSystem.metadata, FileSystem.metadata, resolved,
      FileSystem.resolve_respell same readable resolved]
  have stampedNow : Stamp.read fs spelling = .ok stamp := by
    rw [Stamp.read, agree]
    exact stamped
  have sameText := tells earlier member fs present spelling stamp stampedThen stampedNow
  rw [readThen] at sameText
  rw [← readText_congr agree]
  exact eq_ok_of_toOption sameText.symm

end Witnesses

namespace FileCache

/-- Every entry holds what its file had at some moment. -/
def Genuine (moments : List FileSystem) (cache : FileCache) : Prop :=
  ∀ entry ∈ cache.entries, Witnessed moments entry.path entry.stamp entry.content

variable {moments : List FileSystem} {cache : FileCache} {fs : FileSystem} {path : Path}
  {content : String} {stamp : Stamp}

theorem Genuine.invalidate (genuine : Genuine moments cache) (path : Path) :
    Genuine moments (cache.invalidate path).1 :=
  fun entry member => genuine entry (mem_of_mem_invalidate member)

theorem Genuine.get (genuine : Genuine moments cache) (fs : FileSystem) (path : Path) :
    Genuine moments (cache.get fs path).1 :=
  fun entry member => genuine entry (mem_of_mem_get member)

theorem Genuine.put (genuine : Genuine moments cache) (witnessed : Witnessed moments path stamp content) :
    Genuine moments (cache.put path content stamp).1 := by
  intro entry member
  rcases mem_put member with rfl | old
  · exact witnessed
  · exact genuine entry old

theorem readStamped_eq_ok_iff :
    readStamped fs path = .ok (content, stamp) ↔
      Stamp.read fs path = .ok stamp ∧ fs.readText path = .ok content := by
  unfold readStamped
  cases Stamp.read fs path <;> cases fs.readText path <;> simp [and_comm]

/-- What has just been read may be put in. -/
theorem Genuine.putRead (genuine : Genuine moments cache) (present : fs ∈ moments)
    (read : readStamped fs path = .ok (content, stamp)) :
    Genuine moments (cache.put path content stamp).1 :=
  genuine.put ⟨fs, present, path, BEq.rfl, readStamped_eq_ok_iff.mp read⟩

theorem Genuine.readThrough (genuine : Genuine moments cache) (present : fs ∈ moments) (path : Path) :
    Genuine moments (cache.readThrough fs path).1 := by
  have looked := genuine.get fs path
  unfold FileCache.readThrough
  split
  case h_1 found =>
    rw [found] at looked
    exact looked
  case h_2 missed =>
    rw [missed] at looked
    split
    · exact looked
    case h_2 read => exact looked.putRead present read

/-- What is handed out is what the file has. -/
theorem Genuine.readStamped_of_get (genuine : Genuine moments cache) (tells : StampsTell moments)
    (present : fs ∈ moments) (found : (cache.get fs path).2 = some (content, stamp)) :
    readStamped fs path = .ok (content, stamp) := by
  obtain ⟨entry, member, same, rfl, rfl, stamped⟩ := exists_of_get found
  have witnessed := (genuine entry member).congr same
  exact readStamped_eq_ok_iff.mpr ⟨stamped, tells.readText_of_witnessed present witnessed stamped⟩

theorem Genuine.readThrough_eq (genuine : Genuine moments cache) (tells : StampsTell moments)
    (present : fs ∈ moments) (path : Path) :
    (cache.readThrough fs path).2 = (readStamped fs path).map (·.1) := by
  unfold FileCache.readThrough
  split
  case h_1 found =>
    rw [genuine.readStamped_of_get tells present (congrArg Prod.snd found)]
    rfl
  case h_2 =>
    cases readStamped fs path <;> rfl

end FileCache

/-- A cache, if there is one, holds what the files have. -/
def Truthful (fs : FileSystem) (files : Option FileCache) : Prop :=
  ∀ cache ∈ files, cache.Genuine [fs]

end DepAtlas
