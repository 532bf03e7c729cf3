import DepAtlas.Proofs.FileCache.Recency
import DepAtlas.Proofs.Incremental.Transparency

/-!
A file cache is transparent: however files are edited between the calls, whatever was dropped and whatever
was too large to be put in, a file is read through the cache just as it would be read without it.
-/

namespace DepAtlas

/-- Only what a file was read as, at one of the moments, is put into the cache. -/
def CacheCall.Honest (moments : List FileSystem) : CacheCall → Prop
  | .put path content stamp => ∃ fs ∈ moments, FileCache.readStamped fs path = .ok (content, stamp)
  | .get _ | .readThrough _ | .invalidate _ | .clear => True

namespace FileCache

variable {moments : List FileSystem} {cache : FileCache} {fs : FileSystem}

theorem Genuine.apply (genuine : Genuine moments cache) (present : fs ∈ moments) {call : CacheCall}
    (honest : call.Honest moments) : Genuine moments (cache.apply fs call) := by
  cases call with
  | get path => exact genuine.get fs path
  | put path content stamp =>
    rcases honest with ⟨earlier, member, read⟩
    exact genuine.putRead member read
  | readThrough path => exact genuine.readThrough present path
  | invalidate path => exact genuine.invalidate path
  | clear => exact fun _ member => nomatch member

theorem Genuine.run {history : History} (genuine : Genuine moments history.cache)
    {calls : List (FileSystem × CacheCall)}
    (honest : ∀ call ∈ calls, call.1 ∈ moments ∧ call.2.Honest moments) :
    Genuine moments (history.run calls).cache := by
  induction calls generalizing history with
  | nil => exact genuine
  | cons call rest ih =>
    rcases List.forall_mem_cons.mp honest with ⟨⟨present, honestFirst⟩, honestRest⟩
    have kept : Genuine moments (history.step call).cache := genuine.apply present honestFirst
    exact ih kept honestRest

/-- After any calls, on file systems that changed in any way between them, reading through the cache gives
the text or the failure that reading without it gives, and what a look-up finds is what the file has. -/
theorem reads_of_run {maxEntries maxBytes : Nat} {empty : FileCache}
    (created : create maxEntries maxBytes = .ok empty) (calls : List (FileSystem × CacheCall))
    (fs : FileSystem) (tells : StampsTell (fs :: calls.map Prod.fst))
    (honest : ∀ call ∈ calls, call.2.Honest (fs :: calls.map Prod.fst)) (path : Path) :
    let cache := (History.run { cache := empty } calls).cache
    (cache.readThrough fs path).2 = (readStamped fs path).map Prod.fst ∧
      ∀ content stamp, (cache.get fs path).2 = some (content, stamp) →
        readStamped fs path = .ok (content, stamp) := by
  intro cache
  have begins : Genuine (fs :: calls.map Prod.fst) empty := by
    intro entry member
    rw [entries_of_create created] at member
    cases member
  have genuine : Genuine (fs :: calls.map Prod.fst) cache := by
    apply Genuine.run begins
    intro call member
    exact ⟨List.mem_cons_of_mem _ (List.mem_map_of_mem member), honest call member⟩
  have present : fs ∈ fs :: calls.map Prod.fst := List.mem_cons_self
  constructor
  · exact genuine.readThrough_eq tells present path
  · intro content stamp found
    exact genuine.readStamped_of_get tells present found

/-- A file is read that will then be rewritten with a text too large for a cache of twelve bytes. -/
def outgrown : List (FileSystem × CacheCall) :=
  [(Workspace.oneFile "import os\n" 1, .readThrough ⟨"/a.py"⟩)]

theorem reads_of_run_outgrown :
    ∃ empty, create 4 12 = .ok empty ∧
      let cache := (History.run { cache := empty } outgrown).cache
      let fs := Workspace.oneFile "import numpy\n" 2
      cache.contains ⟨"/a.py"⟩ = true ∧ (cache.readThrough fs ⟨"/a.py"⟩).2 = .ok "import numpy\n" ∧
        (cache.readThrough fs ⟨"/a.py"⟩).1.contains ⟨"/a.py"⟩ = false := by
  have created : create 4 12 = .ok { maxEntries := 4, maxBytes := 12 } := rfl
  refine ⟨_, created, by decide +kernel, ?_, by decide +kernel⟩
  let fs := Workspace.oneFile "import numpy\n" 2
  have moments : fs :: outgrown.map Prod.fst = Workspace.editedMoments := rfl
  have tells : StampsTell (fs :: outgrown.map Prod.fst) := by
    rw [moments]
    exact Workspace.stable_editedMoments.stampsTell
  have honest : ∀ call ∈ outgrown, call.2.Honest (fs :: outgrown.map Prod.fst) := by
    intro call member
    rw [List.mem_singleton.mp member]
    trivial
  have read : (readStamped fs ⟨"/a.py"⟩).map Prod.fst = .ok "import numpy\n" :=
    eq_ok_of_toOption (by decide +kernel)
  exact (reads_of_run created outgrown fs tells honest ⟨"/a.py"⟩).1.trans read

end FileCache

end DepAtlas
