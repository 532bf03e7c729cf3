import DepAtlas.Proofs.Path.Below
import DepAtlas.Proofs.Walk.Levels

/-!
What a walk that follows no links yields: from each root the files that are eligible, each once and in the
order of paths.
-/

namespace DepAtlas.Walk

open FileSystem (IsName)

/-- No name on the way from a root is hidden, and nothing on the way is excluded. -/
structure Open (context : Context) (names : List String) : Prop where
  shown : ∀ name ∈ names, name.startsWith "." = false
  kept : ∀ front, front <+: names → front ≠ [] → context.excludes ⟨"/".intercalate front⟩ = false

/-- Directories of these names are entered one inside the other. -/
structure Enterable (context : Context) (names : List String) : Prop where
  known : ∀ name ∈ names, name ∉ ignoredDirectories
  near : ∀ most ∈ context.options.maxDepth, names.length ≤ most

/-- Names lead down from the directory of a root to a file that the walk is to yield. -/
structure Eligible (context : Context) (place : Location) (names : List String) : Prop where
  isOpen : Open context names
  enterable : Enterable context names.dropLast
  plain : ∀ front, front <+: names → ∀ target, context.fs.nodeAt? (place ++ front) ≠ some (.link target)
  file : ∃ content time, context.fs.nodeAt? (place ++ names) = some (.file content time) ∧
    content.length ≤ context.options.maxFileSize

/-- Paths are those of the eligible files below some names, in strictly increasing order. Files with paths
that are too long to be looked up are missing. -/
structure Lists (context : Context) (root : Path) (place : Location) (front : List String)
    (listing : List Path) : Prop where
  increasing : listing.Pairwise Path.Before
  exact : ∀ path, path ∈ listing ↔ ∃ rest, Eligible context place (front ++ rest) ∧
    path = root.below (front ++ rest) ∧ path.isUsable = true

/-- What a root is to yield: the paths of all eligible files below it, in strictly increasing order. -/
def IsListing (context : Context) (root : Path) (listing : List Path) : Prop :=
  ∃ place, context.fs.canonical root = .ok place ∧ listing.Pairwise Path.Before ∧
    ∀ path, path ∈ listing ↔
      ∃ names, Eligible context place names ∧ path = root.below names ∧ path.isUsable = true

/-- A step of a walk yields the eligible files below some names. -/
def Gathers (context : Context) (root : Path) (place : Location) (front : List String)
    (step : WalkState → Except ScanError WalkState) : Prop :=
  ∃ listing, Lists context root place front listing ∧ ∀ state, ∃ after, step state = .ok after ∧
    after.output.files = state.output.files ++ listing

/-- The way down to a directory that is walked. -/
structure Reached (context : Context) (root : Path) (place : Location) (front : List String) : Prop where
  isOpen : Open context front
  enterable : Enterable context front
  resolved : context.fs.resolve (root.below front) = .ok (place ++ front, .directory)

variable {context : Context} {root path : Path} {place : Location} {front names : List String}
  {name : String} {node : Node} {depth levels : Nat} {step : WalkState → Except ScanError WalkState}
  {descend : Path → WalkState → Except ScanError WalkState}

theorem Open.concat (isOpen : Open context front) (shown : name.startsWith "." = false)
    (kept : context.excludes ⟨"/".intercalate (front ++ [name])⟩ = false) :
    Open context (front ++ [name]) where
  shown other member := by
    rcases List.mem_append.mp member with earlier | last
    · exact isOpen.shown other earlier
    · rw [List.mem_singleton.mp last]
      exact shown
  kept some isPrefix nonempty := by
    rcases List.prefix_concat_iff.mp isPrefix with rfl | isPrefix
    · exact kept
    · exact isOpen.kept some isPrefix nonempty

theorem Enterable.concat (enterable : Enterable context front)
    (descends : descends context name front.length = true) : Enterable context (front ++ [name]) := by
  simp only [Walk.descends, Bool.and_eq_true, Bool.not_eq_true'] at descends
  constructor
  · intro other member
    rcases List.mem_append.mp member with earlier | last
    · exact enterable.known other earlier
    · rw [List.mem_singleton.mp last]
      simpa using descends.1
  · intro most isMost
    rw [Option.mem_def.mp isMost] at descends
    rw [List.length_append, List.length_singleton]
    have deeper : front.length < most := by simpa using descends.2
    omega

theorem descends_of_enterable (enterable : Enterable context (front ++ [name] ++ names)) :
    descends context name front.length = true := by
  have known := enterable.known name (by simp)
  simp only [descends, Bool.and_eq_true, Bool.not_eq_true']
  constructor
  · simpa using known
  · cases isMost : context.options.maxDepth with
    | none => rfl
    | some most =>
      have near := enterable.near most isMost
      simp only [List.length_append, List.length_singleton] at near
      simp only [Option.any_some, decide_eq_false_iff_not]
      omega

theorem lists_nil (none : ∀ rest, Eligible context place (front ++ rest) →
      (root.below (front ++ rest)).isUsable = false) : Lists context root place front [] where
  increasing := List.Pairwise.nil
  exact path := by
    constructor
    · intro member
      cases member
    · rintro ⟨rest, eligible, rfl, usable⟩
      cases (none rest eligible).symm.trans usable

theorem gathers_nothing (none : ∀ rest, Eligible context place (front ++ rest) →
      (root.below (front ++ rest)).isUsable = false)
    (idle : ∀ state, ∃ after, step state = .ok after ∧ after.output.files = state.output.files) :
    Gathers context root place front step := by
  refine ⟨[], lists_nil none, fun state => ?_⟩
  rcases idle state with ⟨after, stepped, same⟩
  exact ⟨after, stepped, by rw [same, List.append_nil]⟩

/-- What is done with the node that a shown and kept entry leads to, where no link is followed. -/
def visitNode (context : Context) (name : String) (depth : Nat)
    (descend : Path → WalkState → Except ScanError WalkState) (path : Path) (state : WalkState) :
    Node → Except ScanError WalkState
  | .directory => if descends context name depth then descend path state else .ok state
  | .file content _ => .ok (considerFile context path content.length state)
  | .link _ | .device => .ok state

theorem visitEntry_eq {below : Path} (running : context.token.isCancelled = false)
    (unfollowed : context.options.followSymlinks = false) (named : path.fileName? = some name)
    (relative : path.relativeTo? root = some below) (state : WalkState) :
    visitEntry context root depth descend path state =
      if name.startsWith "." then .ok state
      else if context.excludes below then
        .ok { state with output := { state.output with excluded := state.output.excluded + 1 } }
      else if isLink context path then .ok state
      else
        match context.fs.metadata path with
        | .error failure => .ok (recordError state path failure)
        | .ok node => visitNode context name depth descend path state node := by
  unfold visitEntry
  simp only [running, unfollowed, named, relative, Option.getD_some, Bool.false_eq_true, if_false,
    Bool.not_false, Bool.and_true, Bool.not_eq_true']
  split
  · rfl
  split
  · rfl
  split
  · rfl
  cases context.fs.metadata path with
  | error failure => rfl
  | ok node =>
    cases node with
    | directory =>
      unfold visitNode
      cases descends context name depth <;> rfl
    | file | link | device => rfl

section Tree

variable (tree : context.fs.IsTree)
include tree

theorem isName_of_mem (found : context.fs.nodeAt? (place ++ names) = some node) :
    ∀ name ∈ names, IsName name := by
  intro name member
  rcases List.append_of_mem member with ⟨before, after, rfl⟩
  have stands : ∃ node, context.fs.nodeAt? (place ++ before ++ [name]) = some node := by
    by_cases last : after = []
    · exact ⟨_, by simpa [last] using found⟩
    · have whole : place ++ (before ++ name :: after) = (place ++ before ++ [name]) ++ after := by simp
      rw [whole] at found
      exact ⟨_, tree.directory_of_append last found⟩
  rcases stands with ⟨node, stands⟩
  exact (tree.named stands).1

theorem Eligible.isName (eligible : Eligible context place names) : ∀ name ∈ names, IsName name := by
  rcases eligible.file with ⟨content, time, found, -⟩
  exact isName_of_mem tree found

/-- What stands on the way to an eligible file is a directory. -/
theorem Eligible.directory (eligible : Eligible context place (front ++ names)) (below : names ≠ []) :
    context.fs.nodeAt? (place ++ front) = some .directory := by
  rcases eligible.file with ⟨content, time, found, -⟩
  rw [← List.append_assoc] at found
  exact tree.directory_of_append below found

theorem Eligible.eq_nil (eligible : Eligible context place (front ++ names))
    (found : context.fs.nodeAt? (place ++ front) = some node) (leaf : node.isDirectory = false) :
    names = [] := by
  by_contra below
  cases found.symm.trans (eligible.directory tree below)
  cases leaf

/-- The way from a directory to an eligible file begins with an entry of the directory. -/
theorem Eligible.exists_entry (eligible : Eligible context place (front ++ names))
    (stands : context.fs.nodeAt? (place ++ front) = some .directory) :
    ∃ entry rest, names = entry :: rest ∧
      ∃ node, context.fs.nodeAt? (place ++ (front ++ [entry])) = some node := by
  cases names with
  | nil =>
    rcases eligible.file with ⟨content, time, isFile, -⟩
    rw [List.append_nil] at isFile
    cases stands.symm.trans isFile
  | cons entry rest =>
    refine ⟨entry, rest, rfl, ?_⟩
    rw [List.append_cons] at eligible
    by_cases last : rest = []
    · rcases eligible.file with ⟨content, time, isFile, -⟩
      rw [last, List.append_nil] at isFile
      exact ⟨_, isFile⟩
    · exact ⟨_, eligible.directory tree last⟩

/-- Below a path that cannot be looked up no other one can be. -/
theorem Eligible.isUsable_eq_false (eligible : Eligible context place (front ++ names))
    (some : root.isEmpty = false) (unusable : (root.below front).isUsable = false) :
    (root.below (front ++ names)).isUsable = false := by
  rcases List.forall_mem_append.mp (eligible.isName tree) with ⟨areNames, areNames'⟩
  apply eq_false_of_ne_true
  intro usable
  rw [Path.below_append] at usable
  have nonempty := Path.isEmpty_below some areNames
  cases unusable.symm.trans (Path.isUsable_of_below nonempty areNames' usable)

/-- No link stands at a file, nor on the way to it. -/
theorem plain_of_file {content : Bytes} {time : Time}
    (found : context.fs.nodeAt? (place ++ names) = some (.file content time)) (isPrefix : front <+: names)
    (target : Path) : context.fs.nodeAt? (place ++ front) ≠ some (.link target) := by
  intro link
  rcases isPrefix with ⟨rest, rfl⟩
  by_cases last : rest = []
  · rw [last, List.append_nil] at found
    cases found.symm.trans link
  · rw [← List.append_assoc] at found
    cases (tree.directory_of_append last found).symm.trans link

theorem lists_file {content : Bytes} {time : Time} (isOpen : Open context front)
    (enterable : Enterable context front.dropLast)
    (found : context.fs.nodeAt? (place ++ front) = some (.file content time))
    (small : content.length ≤ context.options.maxFileSize)
    (usable : (root.below front).isUsable = true) :
    Lists context root place front [root.below front] where
  increasing := List.pairwise_singleton _ _
  exact path := by
    rw [List.mem_singleton]
    constructor
    · rintro rfl
      have plain (other : List String) (isPrefix : other <+: front) := plain_of_file tree found isPrefix
      refine ⟨[], ?_, by rw [List.append_nil], usable⟩
      rw [List.append_nil]
      exact ⟨isOpen, enterable, plain, content, time, found, small⟩
    · rintro ⟨rest, eligible, rfl, -⟩
      rw [eligible.eq_nil tree found rfl, List.append_nil]

/-- What stands below an entry comes before what stands below a later one. -/
theorem before_of_eligible {other : String} {rest rest' : List String} (some : root.isEmpty = false)
    (before : (root.below (front ++ [name])).Before (root.below (front ++ [other])))
    (eligible : Eligible context place (front ++ [name] ++ rest))
    (eligible' : Eligible context place (front ++ [other] ++ rest')) :
    (root.below (front ++ [name] ++ rest)).Before (root.below (front ++ [other] ++ rest')) := by
  have areNames := List.forall_mem_append.mp (eligible.isName tree)
  have areNames' := List.forall_mem_append.mp (eligible'.isName tree)
  have nonempty := Path.isEmpty_below some areNames.1
  have nonempty' := Path.isEmpty_below some areNames'.1
  have same : (root.below (front ++ [name])).components.length =
      (root.below (front ++ [other])).components.length := by
    rw [Path.components_below some areNames.1, Path.components_below some areNames'.1]
    simp
  rw [Path.below_append, Path.below_append root (front ++ [other])]
  exact before.below same nonempty nonempty' areNames.2 areNames'.2

/-- A file is yielded if it is not too large, and a directory is walked if it is to be entered. -/
theorem gathers_node (isOpen : Open context (front ++ [name])) (enterable : Enterable context front)
    (found : context.fs.nodeAt? (place ++ (front ++ [name])) = some node) (plain : node.isLink = false)
    (usable : (root.below (front ++ [name])).isUsable = true)
    (walks : Enterable context (front ++ [name]) → node = .directory →
      Gathers context root place (front ++ [name]) (descend (root.below (front ++ [name]))))
    (steps : ∀ state, step state =
      visitNode context name front.length descend (root.below (front ++ [name])) state node) :
    Gathers context root place (front ++ [name]) step := by
  unfold visitNode at steps
  cases node with
  | directory =>
    cases entered : descends context name front.length with
    | true =>
      rcases walks (enterable.concat entered) rfl with ⟨listing, lists, walked⟩
      refine ⟨listing, lists, fun state => ?_⟩
      rw [steps, if_pos entered]
      exact walked state
    | false =>
      simp only [entered, Bool.false_eq_true, if_false] at steps
      apply gathers_nothing
      · intro rest eligible
        rcases eligible.exists_entry tree found with ⟨entry, more, rfl, -⟩
        have below := eligible.enterable
        rw [List.dropLast_append_of_ne_nil (List.cons_ne_nil _ _)] at below
        cases entered.symm.trans (descends_of_enterable below)
      · exact fun state => ⟨_, steps state, rfl⟩
  | file content time =>
    by_cases small : content.length ≤ context.options.maxFileSize
    · have entered : Enterable context (front ++ [name]).dropLast := by
        rw [List.dropLast_concat]
        exact enterable
      refine ⟨_, lists_file tree isOpen entered found small usable, fun state => ⟨_, steps state, ?_⟩⟩
      rw [considerFile, if_neg (Nat.not_lt.mpr small)]
    · apply gathers_nothing
      · intro rest eligible
        cases eligible.eq_nil tree found rfl
        rcases eligible.file with ⟨content', time', isFile, small'⟩
        rw [List.append_nil] at isFile
        cases found.symm.trans isFile
        exact absurd small' small
      · intro state
        refine ⟨_, steps state, ?_⟩
        rw [considerFile, if_pos (Nat.not_le.mp small)]
  | link target => cases plain
  | device =>
    apply gathers_nothing
    · intro rest eligible
      cases eligible.eq_nil tree found rfl
      rcases eligible.file with ⟨content, time, isFile, -⟩
      rw [List.append_nil] at isFile
      cases found.symm.trans isFile
    · exact fun state => ⟨_, steps state, rfl⟩

/-- Entries in order yield the eligible files below them in order. -/
theorem gathers_visitEntries {entries : List String} (some : root.isEmpty = false)
    (sorted : entries.Pairwise fun first second =>
      (root.below (front ++ [first])).Before (root.below (front ++ [second])))
    (each : ∀ entry ∈ entries, Gathers context root place (front ++ [entry])
      (visitEntry context root depth descend (root.below (front ++ [entry])))) :
    ∃ listing, listing.Pairwise Path.Before ∧
      (∀ path, path ∈ listing ↔ ∃ entry ∈ entries, ∃ rest,
        Eligible context place (front ++ [entry] ++ rest) ∧
          path = root.below (front ++ [entry] ++ rest) ∧ path.isUsable = true) ∧
      ∀ state, ∃ after,
        visitEntries context root depth descend (entries.map fun entry => root.below (front ++ [entry]))
          state = .ok after ∧ after.output.files = state.output.files ++ listing := by
  induction entries with
  | nil => exact ⟨[], List.Pairwise.nil, by simp, fun state => ⟨state, rfl, (List.append_nil _).symm⟩⟩
  | cons first others ih =>
    rcases List.pairwise_cons.mp sorted with ⟨before, sorted⟩
    rcases List.forall_mem_cons.mp each with ⟨⟨here, lists, visited⟩, each⟩
    rcases ih sorted each with ⟨listing, increasing, exact, walked⟩
    refine ⟨here ++ listing, ?_, ?_, ?_⟩
    · refine List.pairwise_append.mpr ⟨lists.increasing, increasing, ?_⟩
      intro path inHere path' inOthers
      rcases (lists.exact path).mp inHere with ⟨rest, eligible, rfl, -⟩
      rcases (exact path').mp inOthers with ⟨entry, member, rest', eligible', rfl, -⟩
      exact before_of_eligible tree some (before entry member) eligible eligible'
    · intro path
      rw [List.mem_append, lists.exact, exact, List.exists_mem_cons_iff]
    · intro state
      rcases visited state with ⟨next, first, files⟩
      rcases walked next with ⟨after, rest, files'⟩
      refine ⟨after, ?_, by rw [files', files, List.append_assoc]⟩
      rw [List.map_cons, visitEntries, first]
      exact rest

section Walking

variable (running : context.token.isCancelled = false) (unfollowed : context.options.followSymlinks = false)
  (some : root.isEmpty = false)
include running unfollowed some

/-- An entry yields itself, what stands below it, or nothing. -/
theorem gathers_visitEntry (reached : Reached context root place front)
    (found : context.fs.nodeAt? (place ++ (front ++ [name])) = .some node)
    (walks : Reached context root place (front ++ [name]) →
      Gathers context root place (front ++ [name]) (descend (root.below (front ++ [name])))) :
    Gathers context root place (front ++ [name])
      (visitEntry context root front.length descend (root.below (front ++ [name]))) := by
  have areNames : ∀ other ∈ front ++ [name], IsName other := isName_of_mem tree found
  have named : (root.below (front ++ [name])).fileName? = .some name := by
    rw [Path.below_concat]
    exact Path.fileName?_join (FileSystem.isEmpty_of_resolve reached.resolved) (areNames name (by simp))
  have relative := Path.relativeTo?_below some areNames
  have visited (state : WalkState) :
      visitEntry context root front.length descend (root.below (front ++ [name])) state = _ :=
    visitEntry_eq running unfollowed named relative state
  -- The cases are the tests at an entry in their order, and each of them rules out what it leaves out.
  cases hidden : name.startsWith "." with
  | true =>
    simp only [hidden, if_true] at visited
    apply gathers_nothing
    · intro rest eligible
      cases hidden.symm.trans (eligible.isOpen.shown name (by simp))
    · exact fun state => ⟨_, visited state, rfl⟩
  | false =>
  cases excluded : context.excludes ⟨"/".intercalate (front ++ [name])⟩ with
  | true =>
    simp only [hidden, excluded, Bool.false_eq_true, if_false, if_true] at visited
    apply gathers_nothing
    · intro rest eligible
      have kept := eligible.isOpen.kept (front ++ [name]) (List.prefix_append _ _) (by simp)
      cases excluded.symm.trans kept
    · exact fun state => ⟨_, visited state, rfl⟩
  | false =>
  simp only [hidden, excluded, Bool.false_eq_true, if_false] at visited
  cases usable : (root.below (front ++ [name])).isUsable with
  | false =>
    rcases exists_metadata_error usable with ⟨failure, fails⟩
    apply gathers_nothing
    · intro rest eligible
      exact eligible.isUsable_eq_false tree some usable
    · intro state
      simp only [fails] at visited
      by_cases link : isLink context (root.below (front ++ [name])) = true
      · exact ⟨_, (visited state).trans (if_pos link), rfl⟩
      · exact ⟨_, (visited state).trans (if_neg link), rfl⟩
  | true =>
  have stands : context.fs.nodeAt? (place ++ front ++ [name]) = .some node := by
    rw [List.append_assoc]
    exact found
  have joined := Path.below_concat root front name
  have isLink := isLink_join tree reached.resolved stands (joined ▸ usable)
  rw [← joined] at isLink
  cases plain : node.isLink with
  | true =>
    simp only [isLink, plain, if_true] at visited
    apply gathers_nothing
    · intro rest eligible
      cases node with
      | link target => cases eligible.plain (front ++ [name]) (List.prefix_append _ _) target found
      | file | directory | device => cases plain
    · exact fun state => ⟨_, visited state, rfl⟩
  | false =>
    have resolved := resolve_join tree reached.resolved stands (joined ▸ usable) plain
    rw [← joined, List.append_assoc] at resolved
    have isOpen := reached.isOpen.concat hidden excluded
    simp only [isLink, plain, FileSystem.metadata, resolved, Except.map, Bool.false_eq_true,
      if_false] at visited
    apply gathers_node tree isOpen reached.enterable found plain usable _ visited
    rintro enterable rfl
    exact walks ⟨isOpen, enterable, resolved⟩

/-- The induction is on the levels that are left, of which there are as many as the tree is high. -/
theorem gathers_walkDirectory (reached : Reached context root place front)
    (enough : context.fs.nodes.length ≤ levels + (place ++ front).length) :
    Gathers context root place front
      (walkDirectory context root levels front.length (root.below front)) := by
  have stands := FileSystem.nodeAt?_of_resolve tree reached.resolved
  have height := tree.length_lt stands
  induction levels generalizing front with
  | zero =>
    dsimp only at height
    omega
  | succ levels ih =>
    let names := context.fs.namesAt (place ++ front)
    let entries := sortByPath (fun entry => root.below (front ++ [entry])) names
    have joined (entry : String) : (root.below front).join ⟨entry⟩ = root.below (front ++ [entry]) :=
      (Path.below_concat root front entry).symm
    have isEntry (entry : String) : entry ∈ entries ↔
        ∃ node, context.fs.nodeAt? (place ++ (front ++ [entry])) = .some node := by
      rw [← List.append_assoc]
      exact mem_sortByPath.trans (FileSystem.mem_namesAt_iff tree)
    have sorted : entries.Pairwise fun first second =>
        (root.below (front ++ [first])).Before (root.below (front ++ [second])) := by
      apply pairwise_before_sortByPath
      have apart := apart_entries tree (FileSystem.isEmpty_of_resolve reached.resolved) (place ++ front)
      simpa only [joined, List.pairwise_map, id] using apart
    have each (entry : String) (member : entry ∈ entries) :
        Gathers context root place (front ++ [entry]) (visitEntry context root front.length
          (walkDirectory context root levels (front.length + 1)) (root.below (front ++ [entry]))) := by
      rcases (isEntry entry).mp member with ⟨node, found⟩
      apply gathers_visitEntry tree running unfollowed some reached found
      intro next
      have stands := FileSystem.nodeAt?_of_resolve tree next.resolved
      have deeper : (front ++ [entry]).length = front.length + 1 := List.length_append
      rw [← deeper]
      apply ih next _ stands (tree.length_lt stands)
      simp only [List.length_append, List.length_singleton] at enough ⊢
      omega
    rcases gathers_visitEntries tree some sorted each with ⟨listing, increasing, exact, walked⟩
    refine ⟨listing, ⟨increasing, fun path => (exact path).trans ?_⟩, fun state => ?_⟩
    · constructor
      · rintro ⟨entry, -, rest, eligible, rfl, usable⟩
        rw [List.append_assoc] at eligible usable ⊢
        exact ⟨entry :: rest, eligible, rfl, usable⟩
      · rintro ⟨rest, eligible, rfl, usable⟩
        rcases eligible.exists_entry tree stands with ⟨entry, more, rfl, found⟩
        rw [List.append_cons] at eligible usable ⊢
        exact ⟨entry, (isEntry entry).mpr found, more, eligible, rfl, usable⟩
    · have listed : entriesOf context.fs (root.below front) =
          .ok (entries.map fun entry => root.below (front ++ [entry])) := by
        rw [entriesOf_eq reached.resolved]
        simp only [joined]
        rw [← map_sortByPath]
        rfl
      rw [walkDirectory, listed]
      exact walked state

omit some

/-- A root that is a directory yields all eligible files below it. -/
theorem exists_listing (resolved : context.fs.resolve root = .ok (place, .directory)) :
    ∃ listing, IsListing context root listing ∧ ∀ state, ∃ after, walkRoot context state root = .ok after ∧
      after.output.files = state.output.files ++ listing := by
  have nothing : Open context [] := by
    constructor
    · intro name member
      cases member
    · intro front isPrefix nonempty
      exact absurd (List.prefix_nil.mp isPrefix) nonempty
  have near : Enterable context [] := by
    constructor
    · intro name member
      cases member
    · intro most _
      exact Nat.zero_le most
  have reached : Reached context root place [] := ⟨nothing, near, by rw [List.append_nil]; exact resolved⟩
  have enough : context.fs.nodes.length ≤ maxLevels context.fs + (place ++ []).length := by
    unfold maxLevels
    rw [Nat.add_mul]
    omega
  have some := FileSystem.isEmpty_of_resolve resolved
  rcases gathers_walkDirectory tree running unfollowed some reached enough with ⟨listing, lists, walked⟩
  have canonical : context.fs.canonical root = .ok place := by
    rw [FileSystem.canonical, resolved]
    rfl
  refine ⟨listing, ⟨place, canonical, lists.increasing, lists.exact⟩, fun state => ?_⟩
  have begins : enterRoot context root state = state := by
    unfold enterRoot
    rw [unfollowed]
  have walks : walkRoot context state root =
      walkDirectory context root (maxLevels context.fs) 0 root state := by
    rw [walkRoot, FileSystem.metadata, resolved, entriesOf_eq resolved, begins]
    rfl
  rw [walks]
  exact walked state

end Walking

end Tree

theorem exists_walkRoots (tree : context.fs.IsTree) (running : context.token.isCancelled = false)
    (unfollowed : context.options.followSymlinks = false) {roots : List Path}
    (directories : ∀ root ∈ roots, context.fs.isDirectory root = true) (state : WalkState) :
    ∃ after listings, walkRoots context roots state = .ok after ∧
      List.Forall₂ (IsListing context) roots listings ∧
      after.output.files = state.output.files ++ listings.flatten := by
  induction roots generalizing state with
  | nil => exact ⟨state, [], rfl, .nil, (List.append_nil _).symm⟩
  | cons root rest ih =>
    rcases List.forall_mem_cons.mp directories with ⟨isDirectory, directories⟩
    rcases FileSystem.isDirectory_iff.mp isDirectory with ⟨place, resolved⟩
    rcases exists_listing tree running unfollowed resolved with ⟨listing, isListing, walked⟩
    rcases walked state with ⟨next, first, files⟩
    rcases ih directories next with ⟨after, listings, others, areListings, files'⟩
    refine ⟨after, listing :: listings, ?_, .cons isListing areListings, ?_⟩
    · rw [walkRoots, first]
      exact others
    · rw [files', files, List.flatten_cons, List.append_assoc]

/-- Without links followed, a walk of directories yields from each root its eligible files, and nothing
else. -/
theorem walk_yields_eligible (tree : context.fs.IsTree) (running : context.token.isCancelled = false)
    (unfollowed : context.options.followSymlinks = false) {roots : List Path}
    (directories : ∀ root ∈ roots, context.fs.isDirectory root = true) :
    ∃ state listings, walkRoots context roots {} = .ok state ∧
      List.Forall₂ (IsListing context) roots listings ∧ state.output.files = listings.flatten ∧
      ∀ globs, readExcludes context.options.exclude = .ok globs →
        context.excludes = (fun path => globs.any (·.accepts path.text)) →
        walk context.fs roots context.options context.token = .ok state.output := by
  rcases exists_walkRoots tree running unfollowed directories {} with
    ⟨state, listings, walked, areListings, files⟩
  refine ⟨state, listings, walked, areListings, files, fun globs read excludes => ?_⟩
  rw [walk_eq read excludes, walked]
  rfl

/-- Roots below which one file is to be yielded, and others are ignored, excluded or too deep. -/
def mixed : Context where
  fs := {
    nodes := [([], .directory), (["p"], .directory), (["p", "a"], .directory),
      (["p", "a", "c.rs"], .file [99] {}), (["q"], .directory), (["q", "vendor"], .directory),
      (["q", "vendor", "x.rs"], .file [120] {}), (["r"], .directory), (["r", "gen"], .directory),
      (["r", "gen", "y.rs"], .file [121] {}), (["s"], .directory), (["s", "a"], .directory),
      (["s", "a", "b"], .directory), (["s", "a", "b", "z.rs"], .file [122] {})]
    current := [] }
  options := { maxDepth := some 1, maxFileSize := 2 }
  excludes path := path.text == "gen"

theorem walk_yields_eligible_mixed :
    let roots : List Path := [⟨"p"⟩, ⟨"q"⟩, ⟨"r"⟩, ⟨"s"⟩]
    ∃ state listings, walkRoots mixed roots {} = .ok state ∧
      List.Forall₂ (IsListing mixed) roots listings ∧ state.output.files = listings.flatten ∧
      state.output.files.map (·.text) = ["p/a/c.rs"] := by
  intro roots
  have tree : mixed.fs.IsTree :=
    FileSystem.isTree_of_isPlaced (by decide +kernel) (by decide +kernel) (by decide +kernel)
      (by decide +kernel)
  have directories : ∀ root ∈ roots, mixed.fs.isDirectory root = true := by decide +kernel
  rcases walk_yields_eligible tree rfl rfl directories with ⟨state, listings, walked, areListings, files, -⟩
  have yielded : (walkRoots mixed roots {}).toOption.map (·.output.files.map (·.text)) =
      some ["p/a/c.rs"] := by decide +kernel
  rw [walked] at yielded
  exact ⟨state, listings, walked, areListings, files, Option.some.inj yielded⟩

/-- A directory, with as many separators behind its name as one likes. -/
def slashed (count : Nat) : Path := ⟨String.ofList ('p' :: List.replicate count '/')⟩

def distant : Context where
  fs := {
    nodes := [([], .directory), (["p"], .directory), (["p", "a.rs"], .file "fn a() {}\n".toUTF8.toList {})]
    current := [] }
  options := { maxFileSize := 1000 }
  excludes _ := false

theorem utf8ByteSize_slashed (count : Nat) : (slashed count).text.utf8ByteSize = count + 1 := by
  unfold slashed
  rw [String.ofList_cons, String.utf8ByteSize_append]
  induction count with
  | zero => rfl
  | succ count ih =>
    rw [List.replicate_succ, String.ofList_cons, String.utf8ByteSize_append]
    have one : (String.singleton '/').utf8ByteSize = 1 := rfl
    omega

theorem segments_slashed (count : Nat) : (slashed count).segments = "p" :: List.replicate count "" := by
  have slashes : Text.splitWhere (· == '/') (List.replicate count '/') = List.replicate (count + 1) [] := by
    induction count with
    | zero => rfl
    | succ count ih =>
      rw [List.replicate_succ, Text.splitWhere, ih]
      rfl
  rw [Path.segments, slashed, String.toList_ofList, Text.splitWhere, slashes, List.replicate_succ]
  simp

theorem isUsable_slashed {count : Nat} (short : count < FileSystem.longestPath) :
    (slashed count).isUsable = true := by
  have named : (slashed count).isEmpty = false := by
    apply eq_false_of_ne_true
    intro empty
    have size := utf8ByteSize_slashed count
    rw [String.isEmpty_iff.mp empty] at size
    cases size
  have noNul : (slashed count).text.toList.contains '\x00' = false := by
    simp [slashed]
  rw [Path.isUsable, named, noNul, utf8ByteSize_slashed]
  exact decide_eq_true short

theorem resolve_slashed {count : Nat} (short : count < FileSystem.longestPath) :
    distant.fs.resolve (slashed count) = .ok (["p"], .directory) := by
  have relative : (slashed count).isAbsolute = false := by
    rw [Path.isAbsolute, slashed, String.toList_ofList]
    rfl
  have voids : (List.replicate count "").all String.isEmpty = true := by
    simp
  have located : distant.fs.locate .follow (slashed count) =
      .ok (.entry [] "p" !(List.replicate count "").isEmpty) := by
    rw [FileSystem.locate_of_isUsable (isUsable_slashed short), relative, segments_slashed]
    exact FileSystem.walkSegments_last rfl (by decide) voids []
  have looked : distant.fs.lookup [] "p" = .ok (some .directory) := rfl
  rw [FileSystem.resolve, FileSystem.find, located]
  dsimp only
  rw [looked]
  simp [Node.isDirectory]

theorem tree_distant : distant.fs.IsTree :=
  FileSystem.isTree_of_isPlaced (by decide) (by decide) (by decide) (by decide)

theorem eligible_distant : Eligible distant ["p"] ["a.rs"] where
  isOpen := ⟨by decide +kernel, fun _ _ _ => rfl⟩
  enterable := ⟨by decide, fun _ unbounded => nomatch unbounded⟩
  plain front isPrefix := plain_of_file tree_distant rfl isPrefix
  file := ⟨_, _, rfl, by decide +kernel⟩

theorem eq_of_eligible_distant {names : List String} (eligible : Eligible distant ["p"] names) :
    names = ["a.rs"] := by
  rcases eligible.file with ⟨content, time, found, -⟩
  rcases Assoc.exists_mem_of_get? found with ⟨entry, member, same, isFile⟩
  have same := eq_of_beq same
  simp only [distant, List.mem_cons, List.not_mem_nil, or_false] at member
  rcases member with rfl | rfl | rfl
  · cases isFile
  · cases isFile
  · exact (List.cons.inj same).2.symm

theorem isUsable_below_slashed {count : Nat} (long : FileSystem.longestPath < count + 5) :
    ((slashed count).below ["a.rs"]).isUsable = false := by
  have stands : distant.fs.nodeAt? (["p"] ++ ["a.rs"]) = some _ := rfl
  rcases Path.exists_text_join (tree_distant.named stands).1 (slashed count) with ⟨between, spelled⟩
  have size : ((slashed count).below ["a.rs"]).text.utf8ByteSize =
      count + 1 + (between.utf8ByteSize + 4) := by
    rw [← List.nil_append ["a.rs"], Path.below_concat]
    change ((slashed count).join ⟨"a.rs"⟩).text.utf8ByteSize = _
    rw [spelled, String.utf8ByteSize_append, String.utf8ByteSize_append, utf8ByteSize_slashed]
    rfl
  have tooLong : ¬ ((slashed count).below ["a.rs"]).text.utf8ByteSize ≤ FileSystem.longestPath := by
    omega
  rw [Path.isUsable, decide_eq_false tooLong, Bool.and_false]

/-- A file is missed if its path is too long to be looked up, be it ever so eligible. -/
theorem long_path_is_missed : ∃ output,
    distant.fs.IsTree ∧ distant.token.isCancelled = false ∧ distant.options.followSymlinks = false ∧
      distant.fs.readDirectory (slashed 4092) = .ok ["a.rs"] ∧
      distant.fs.canonical (slashed 4092) = .ok ["p"] ∧ Eligible distant ["p"] ["a.rs"] ∧
      walk distant.fs [slashed 4092] distant.options distant.token = .ok output ∧ output.files = [] := by
  have resolved := resolve_slashed (by decide : 4092 < FileSystem.longestPath)
  have unusable := isUsable_below_slashed (by decide : FileSystem.longestPath < 4092 + 5)
  -- The text of the root is never looked at from here on.
  generalize slashed 4092 = root at resolved unusable ⊢
  have canonical : distant.fs.canonical root = .ok ["p"] := by
    rw [FileSystem.canonical, resolved]
    rfl
  have names : distant.fs.readDirectory root = .ok ["a.rs"] := by
    rw [FileSystem.readDirectory, resolved]
    rfl
  rcases exists_listing tree_distant rfl rfl resolved with ⟨listing, ⟨place, isPlace, -, exact⟩, walked⟩
  cases isPlace.symm.trans canonical
  have nothing : listing = [] := by
    apply List.eq_nil_iff_forall_not_mem.mpr
    intro path member
    rcases (exact path).mp member with ⟨names, eligible, rfl, usable⟩
    rw [eq_of_eligible_distant eligible, unusable] at usable
    cases usable
  rcases walked {} with ⟨state, first, files⟩
  have ended : walkRoots distant [root] {} = .ok state := by
    rw [walkRoots, first]
    rfl
  have noGlobs : readExcludes distant.options.exclude = .ok [] := rfl
  have walkedAll : walk distant.fs [root] distant.options distant.token = .ok state.output := by
    rw [walk_eq noGlobs rfl, ended]
    rfl
  rw [nothing] at files
  exact ⟨state.output, tree_distant, rfl, rfl, names, canonical, eligible_distant, walkedAll, files⟩

end DepAtlas.Walk
