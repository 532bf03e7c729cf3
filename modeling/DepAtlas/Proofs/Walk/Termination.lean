import DepAtlas.Proofs.Walk.Levels

/-!
A walk ends, whatever links there are. It is taken apart into single steps, of which none depends on how deep
the walk may go, and these steps come to an end with what the walk gives. A directory is entered through
links once at most, and not at all if it was walked as a root before.
-/

namespace DepAtlas.Walk

/-- What comes of visiting an entry. -/
inductive Meeting
  | stop (cause : ScanError)
  | pass (after : WalkState)
  /-- The directory is walked; its location is given if a link leads to it. -/
  | enter (through? : Option Location) (after : WalkState)

/-- What is done at an entry before any directory is walked. -/
def meet (context : Context) (root : Path) (depth : Nat) (path : Path) (state : WalkState) : Meeting :=
  let name := path.fileName?.getD ""
  if context.token.isCancelled then .stop .cancelled
  else if name.startsWith "." then .pass state
  else if context.excludes ((path.relativeTo? root).getD path) then
    .pass { state with output := { state.output with excluded := state.output.excluded + 1 } }
  else if isLink context path && !context.options.followSymlinks then .pass state
  else
    match context.fs.metadata path, context.fs.canonical path with
    | .error failure, _ => .pass (recordError state path failure)
    | .ok .directory, canonical =>
      if !descends context name depth then .pass state
      else if isLink context path then
        match canonical with
        | .error _ => .pass state
        | .ok location =>
          if state.visited.contains location then .pass state
          else .enter (some location) { state with visited := location :: state.visited }
      else .enter none state
    | .ok (.file content _), _ => .pass (considerFile context path content.length state)
    | .ok _, _ => .pass state

/-- A directory that is being walked, with the entries that are left. -/
structure Frame where
  root : Path
  depth : Nat
  entries : List Path

/-- A directory that was entered. -/
inductive Entrance
  | root (location : Location)
  | link (location : Location)

def Entrance.location : Entrance → Location
  | root location | link location => location

/-- A walk between two steps: the roots that are left, the directories that are being walked, the innermost
first, and what was entered so far, the last first. -/
structure Moment where
  roots : List Path
  frames : List Frame := []
  state : WalkState := {}
  entrances : List Entrance := []

/-- What comes of a step. -/
inductive Turn
  | goes (next : Moment)
  | ends (outcome : Except ScanError WalkState)

namespace Moment

/-- Begins to walk a directory that can be read. -/
def openDirectory (context : Context) (root : Path) (depth : Nat) (directory : Path) (moment : Moment) :
    Moment :=
  match entriesOf context.fs directory with
  | .error failure => { moment with state := recordError moment.state directory failure }
  | .ok entries => { moment with frames := { root, depth, entries } :: moment.frames }

/-- Begins to walk a root that is no file. -/
def openRoot (context : Context) (root : Path) (moment : Moment) : Turn :=
  match entriesOf context.fs root with
  | .error failure => .ends (.error (.io root failure))
  | .ok entries =>
    .goes { moment with
      frames := { root, depth := 0, entries } :: moment.frames
      state := enterRoot context root moment.state
      entrances := (context.fs.canonical root).toOption.toList.map Entrance.root ++ moment.entrances }

/-- Takes the next root. -/
def takeRoot (context : Context) (moment : Moment) : Turn :=
  match moment.roots with
  | [] => .ends (.ok moment.state)
  | root :: roots =>
    match context.fs.metadata root with
    | .error _ => .ends (.error (.invalidRoot root))
    | .ok (.file content _) =>
      .goes { moment with roots, state := considerFile context root content.length moment.state }
    | .ok _ => openRoot context root { moment with roots }

/-- Goes on after an entry was visited. -/
def proceed (context : Context) (root : Path) (depth : Nat) (path : Path) (moment : Moment) : Meeting → Turn
  | .stop cause => .ends (.error cause)
  | .pass state => .goes { moment with state }
  | .enter through? state =>
    let entrances := through?.toList.map Entrance.link ++ moment.entrances
    .goes (openDirectory context root (depth + 1) path { moment with state, entrances })

/-- One step: a root is taken, an entry is visited or a directory is left. -/
def advance (context : Context) (moment : Moment) : Turn :=
  match moment.frames with
  | [] => moment.takeRoot context
  | ⟨_, _, []⟩ :: frames => .goes { moment with frames }
  | ⟨root, depth, path :: entries⟩ :: frames =>
    let moment := { moment with frames := ⟨root, depth, entries⟩ :: frames }
    moment.proceed context root depth path (meet context root depth path moment.state)

end Moment

/-- After finitely many steps the walk ends at a moment, with an outcome. -/
inductive Ends (context : Context) : Moment → Moment → Except ScanError WalkState → Prop
  | now {moment : Moment} {outcome : Except ScanError WalkState}
      (ended : moment.advance context = .ends outcome) : Ends context moment moment outcome
  | later {moment next last : Moment} {outcome : Except ScanError WalkState}
      (went : moment.advance context = .goes next) (rest : Ends context next last outcome) :
      Ends context moment last outcome

variable {context : Context} {root path directory : Path} {place goal : Location} {name : String}
  {depth levels : Nat} {state next : WalkState} {through? : Option Location}
  {descend : Path → WalkState → Except ScanError WalkState}

theorem visitEntry_eq_meet :
    visitEntry context root depth descend path state =
      match meet context root depth path state with
      | .stop cause => .error cause
      | .pass after => .ok after
      | .enter _ after => descend path after := by
  unfold visitEntry meet enterLink?
  dsimp only
  split
  · rfl
  split
  · rfl
  split
  · rfl
  split
  · rfl
  cases context.fs.metadata path with
  | error failure => rfl
  | ok node =>
    cases node with
    | file | link | device => rfl
    | directory =>
      dsimp only
      split
      · rfl
      split
      · cases context.fs.canonical path with
        | error failure => rfl
        | ok location =>
          dsimp only
          cases state.visited.contains location <;> rfl
      · rfl

theorem visited_considerFile (size : Nat) :
    (considerFile context path size state).visited = state.visited := by
  unfold considerFile
  split <;> rfl

/-- All that visiting an entry can come to. -/
inductive Met (context : Context) (path : Path) (state : WalkState) : Meeting → Prop
  | stops (cause : ScanError) : Met context path state (.stop cause)
  | passes {after : WalkState} (visited : after.visited = state.visited) :
      Met context path state (.pass after)
  | enters (isDirectory : context.fs.metadata path = .ok .directory) (plain : isLink context path = false) :
      Met context path state (.enter none state)
  | follows {location : Location} (isDirectory : context.fs.metadata path = .ok .directory)
      (link : isLink context path = true) (canonical : context.fs.canonical path = .ok location)
      (new : location ∉ state.visited) :
      Met context path state (.enter (some location) { state with visited := location :: state.visited })

theorem met_meet : Met context path state (meet context root depth path state) := by
  unfold meet
  dsimp only
  split
  · exact .stops _
  split
  · exact .passes rfl
  split
  · exact .passes rfl
  split
  · exact .passes rfl
  split
  · exact .passes rfl
  case h_2 isDirectory =>
    split
    · exact .passes rfl
    split
    case isTrue link =>
      split
      · exact .passes rfl
      case h_2 location canonical =>
        split
        · exact .passes rfl
        case isFalse new => exact .follows isDirectory link canonical (by simpa using new)
    case isFalse plain => exact .enters isDirectory (Bool.not_eq_true _ ▸ plain)
  · exact .passes (visited_considerFile _)
  · exact .passes rfl

namespace Met

theorem isDirectory (met : Met context path state (.enter through? next)) :
    context.fs.metadata path = .ok .directory := by
  cases met with
  | enters isDirectory | follows isDirectory => exact isDirectory

theorem toEnters (met : Met context path state (.enter through? next)) :
    Enters context path state next := by
  unfold Enters
  cases met with
  | enters _ plain =>
    rw [plain]
    rfl
  | follows _ link canonical new =>
    rw [if_pos link, enterLink?, canonical]
    simp [new]

end Met

/-- The walk comes to its end from here on, if what was to be done before comes to an outcome. -/
def Leads (context : Context) (roots : List Path) (frames : List Frame)
    (final : Except ScanError WalkState) : Except ScanError WalkState → Prop
  | .ok state => ∀ entrances, ∃ last, Ends context { roots, frames, state, entrances } last final
  | .error cause => final = .error cause

variable {roots : List Path} {frames : List Frame} {entrances : List Entrance}
  {final : Except ScanError WalkState}

theorem advance_entry {meeting : Meeting} {rest : List Path}
    (met : meet context root depth path state = meeting) :
    Moment.advance context { roots, frames := ⟨root, depth, path :: rest⟩ :: frames, state, entrances } =
      Moment.proceed context root depth path
        { roots, frames := ⟨root, depth, rest⟩ :: frames, state, entrances } meeting := by
  rw [← met]
  rfl

theorem Ends.of_goes {moment next : Moment} (went : moment.advance context = .goes next)
    (rest : ∃ last, Ends context next last final) : ∃ last, Ends context moment last final := by
  rcases rest with ⟨last, rest⟩
  exact ⟨last, .later went rest⟩

/-- A directory that is entered from an entry comes to what `descend` gives. -/
def Descends (context : Context) (root : Path) (depth : Nat) (inv : WalkState → Prop)
    (descend : Path → WalkState → Except ScanError WalkState) (path : Path) : Prop :=
  ∀ roots frames final entrances state through? next, inv state →
    meet context root depth path state = .enter through? next →
    Leads context roots frames final (descend path next) → ∃ last, Ends context
      (Moment.openDirectory context root (depth + 1) path { roots, frames, state := next, entrances })
      last final

/-- The entries that are left of a directory are visited one after the other. -/
theorem ends_of_entries {paths : List Path} {inv : WalkState → Prop} (keeps : Keeps context inv)
    (kept : ∀ {path state after}, inv state → descend path state = .ok after → inv after)
    (walks : ∀ path ∈ paths, Descends context root depth inv descend path) (held : inv state)
    (leads : Leads context roots frames final (visitEntries context root depth descend paths state))
    (entrances : List Entrance) : ∃ last,
      Ends context { roots, frames := ⟨root, depth, paths⟩ :: frames, state, entrances } last final := by
  induction paths generalizing state entrances with
  | nil => exact Ends.of_goes rfl (leads entrances)
  | cons path rest ih =>
    rcases List.forall_mem_cons.mp walks with ⟨walksFirst, walksRest⟩
    have visited : visitEntry context root depth descend path state = _ := visitEntry_eq_meet
    rw [visitEntries] at leads
    have continues (outcome : Except ScanError WalkState)
        (same : visitEntry context root depth descend path state = outcome) :
        Leads context roots (⟨root, depth, rest⟩ :: frames) final outcome := by
      rw [same] at leads
      cases outcome with
      | error cause => exact leads
      | ok after => exact ih walksRest (keeps.visitEntry kept held same) leads
    -- What the walk does at the entry is what the steps do, by the same decision.
    cases met : meet context root depth path state with
    | stop cause =>
      rw [met] at visited
      rw [continues _ visited]
      exact ⟨_, .now (advance_entry met)⟩
    | pass after =>
      rw [met] at visited
      exact Ends.of_goes (advance_entry met) (continues _ visited entrances)
    | enter through? next =>
      rw [met] at visited
      exact Ends.of_goes (advance_entry met) (walksFirst _ _ _ _ _ _ _ held met (continues _ visited))

/-- The induction is on the levels that the walk is given, which are enough. -/
theorem ends_of_directory (tree : context.fs.IsTree)
    (resolved : context.fs.resolve directory = .ok (place, .directory))
    (entered : Entered context.fs 0 state) (enough : need context.fs state place ≤ levels)
    (leads : Leads context roots frames final
      (walkDirectory context root levels depth directory state))
    (entrances : List Entrance) : ∃ last,
      Ends context
        (Moment.openDirectory context root depth directory { roots, frames, state, entrances })
        last final := by
  have height : place.length < context.fs.nodes.length :=
    tree.length_lt (FileSystem.nodeAt?_of_resolve tree resolved)
  have positive : 0 < need context.fs state place := need_pos height state
  induction levels generalizing roots frames final depth directory place state entrances with
  | zero => omega
  | succ levels ih =>
    rw [walkDirectory, entriesOf_eq resolved] at leads
    rw [Moment.openDirectory, entriesOf_eq resolved]
    let keeps := keeps_entered tree state.visited.length
    have begun : Entered context.fs state.visited.length state :=
      ⟨entered.nodup, entered.stored, Nat.le_refl _⟩
    have kept {path : Path} {earlier after : WalkState}
        (held : Entered context.fs state.visited.length earlier)
        (walked : walkDirectory context root levels (depth + 1) path earlier = .ok after) :
        Entered context.fs state.visited.length after := keeps.walkDirectory held walked
    apply ends_of_entries keeps kept _ begun leads entrances
    intro path member roots frames final entrances earlier through? next held met leads
    rcases exists_of_mem_entries tree member with ⟨name, node, rfl, found⟩
    have entry : Met context _ earlier (.enter through? next) := met ▸ met_meet
    rcases resolve_of_metadata entry.isDirectory with ⟨goal, reached⟩
    have height' : goal.length < context.fs.nodes.length :=
      tree.length_lt (FileSystem.nodeAt?_of_resolve tree reached)
    -- Through a link one more location is noted; otherwise the entry stands deeper in the tree.
    rcases need_of_enters tree resolved found reached height held entry.toEnters with ⟨entered', lower⟩
    exact ih reached entered' (by omega) leads entrances height' (need_pos height' next)

theorem ends_of_openRoot (tree : context.fs.IsTree) (entered : Entered context.fs 0 state)
    {moment : Moment} (leads : Leads context roots [] final
      (match entriesOf context.fs root with
      | .error failure => .error (.io root failure)
      | .ok _ => walkDirectory context root (maxLevels context.fs) 0 root (enterRoot context root state)))
    (went : moment.advance context = Moment.openRoot context root { roots, state, entrances }) :
    ∃ last, Ends context moment last final := by
  unfold Moment.openRoot at went
  cases entries : entriesOf context.fs root with
  | error failure =>
    rw [entries] at leads went
    rw [leads]
    exact ⟨_, .now went⟩
  | ok listed =>
    rw [entries] at leads went
    rcases exists_of_entriesOf entries with ⟨place, resolved⟩
    have entered := (keeps_entered tree 0).enterRoot resolved entered
    have most := need_le_maxLevels context.fs (enterRoot context root state) place
    have opened := ends_of_directory tree resolved entered most leads
    simp only [Moment.openDirectory, entries] at opened
    exact Ends.of_goes went (opened _)

/-- A walk of roots ends with what the walk gives. -/
theorem ends_of_roots (tree : context.fs.IsTree) (entered : Entered context.fs 0 state)
    (entrances : List Entrance) :
    ∃ last, Ends context { roots, state, entrances } last (walkRoots context roots state) := by
  induction roots generalizing state entrances with
  | nil => exact ⟨_, .now rfl⟩
  | cons root rest ih =>
    have continues (outcome : Except ScanError WalkState) (walked : walkRoot context state root = outcome) :
        Leads context rest [] (walkRoots context (root :: rest) state) outcome := by
      rw [walkRoots, walked]
      cases outcome with
      | error cause => rfl
      | ok after => exact ih ((keeps_entered tree 0).walkRoot entered walked)
    have taken : Moment.advance context { roots := root :: rest, state, entrances } =
        Moment.takeRoot context { roots := root :: rest, state, entrances } := rfl
    unfold walkRoot at continues
    unfold Moment.takeRoot at taken
    dsimp only at taken
    cases metadata : context.fs.metadata root with
    | error failure =>
      rw [metadata] at continues taken
      rw [continues _ rfl]
      exact ⟨_, .now taken⟩
    | ok node =>
      rw [metadata] at continues taken
      cases node with
      | file content time => exact Ends.of_goes taken (continues _ rfl _)
      | directory | link | device => exact ends_of_openRoot tree entered (continues _ rfl) taken

/-- Every directory that was entered is noted, and what was entered through a link was not entered before. -/
structure Fresh (moment : Moment) : Prop where
  noted : ∀ entrance ∈ moment.entrances, entrance.location ∈ moment.state.visited
  apart : moment.entrances.Pairwise fun later earlier =>
    ∀ location, later = .link location → earlier.location ≠ location

namespace Fresh

variable {moment next : Moment}

theorem of_visited (fresh : Fresh moment) (entrances : next.entrances = moment.entrances)
    (visited : moment.state.visited ⊆ next.state.visited) : Fresh next where
  noted entrance member := visited (fresh.noted entrance (entrances ▸ member))
  apart := entrances ▸ fresh.apart

theorem openDirectory (fresh : Fresh moment) (directory : Path) :
    Fresh (moment.openDirectory context root depth directory) := by
  unfold Moment.openDirectory
  split
  · exact fresh.of_visited rfl (List.Subset.refl _)
  · exact fresh.of_visited rfl (List.Subset.refl _)

/-- A directory is entered through a link that was not entered before. -/
theorem through (fresh : Fresh moment) {location : Location} (new : location ∉ moment.state.visited) :
    Fresh { moment with
      state := { moment.state with visited := location :: moment.state.visited }
      entrances := .link location :: moment.entrances } where
  noted entrance member := by
    rcases List.mem_cons.mp member with rfl | earlier
    · exact List.mem_cons_self
    · exact List.mem_cons_of_mem _ (fresh.noted entrance earlier)
  apart := by
    refine List.pairwise_cons.mpr ⟨fun earlier member => ?_, fresh.apart⟩
    rintro _ ⟨⟩ same
    exact new (same ▸ fresh.noted earlier member)

theorem asRoot (fresh : Fresh moment) {location : Location} {roots : List Path} {frames : List Frame}
    {state : WalkState} (noted : location ∈ state.visited) (visited : moment.state.visited ⊆ state.visited) :
    Fresh { roots, frames, state, entrances := .root location :: moment.entrances } where
  noted entrance member := by
    rcases List.mem_cons.mp member with rfl | earlier
    · exact noted
    · exact visited (fresh.noted entrance earlier)
  apart := by
    refine List.pairwise_cons.mpr ⟨fun earlier member => ?_, fresh.apart⟩
    rintro _ ⟨⟩

theorem openRoot (fresh : Fresh moment) (follows : context.options.followSymlinks = true)
    (went : moment.openRoot context root = .goes next) : Fresh next := by
  unfold Moment.openRoot at went
  split at went
  · cases went
  · cases went
    unfold enterRoot
    rw [follows]
    cases context.fs.canonical root with
    | error failure => exact fresh.of_visited rfl (List.Subset.refl _)
    | ok location =>
      dsimp only
      -- A root is walked in either case, also if it was noted before; only links are held back by that.
      split
      case isTrue noted => exact fresh.asRoot (by simpa using noted) (List.Subset.refl _)
      case isFalse => exact fresh.asRoot List.mem_cons_self (List.subset_cons_self _ _)

theorem takeRoot (fresh : Fresh moment) (follows : context.options.followSymlinks = true)
    (went : moment.takeRoot context = .goes next) : Fresh next := by
  unfold Moment.takeRoot at went
  split at went
  · cases went
  split at went
  · cases went
  · cases went
    refine fresh.of_visited rfl ?_
    rw [visited_considerFile]
    exact List.Subset.refl _
  · refine openRoot ?_ follows went
    exact fresh.of_visited rfl (List.Subset.refl _)

theorem proceed (fresh : Fresh moment) {meeting : Meeting} (met : Met context path moment.state meeting)
    (went : moment.proceed context root depth path meeting = .goes next) : Fresh next := by
  cases met with
  | stops cause => cases went
  | passes visited =>
    cases went
    refine fresh.of_visited rfl ?_
    rw [visited]
    exact List.Subset.refl _
  | enters =>
    cases went
    exact (fresh.of_visited rfl (List.Subset.refl _)).openDirectory path
  | follows _ _ _ new =>
    cases went
    exact (fresh.through new).openDirectory path

/-- One step enters no directory through a link that was entered before. -/
theorem advance (fresh : Fresh moment) (follows : context.options.followSymlinks = true)
    (went : moment.advance context = .goes next) : Fresh next := by
  unfold Moment.advance at went
  split at went
  · exact fresh.takeRoot follows went
  · cases went
    exact fresh.of_visited rfl (List.Subset.refl _)
  case h_3 root depth path entries frames _ =>
    have left : Fresh { moment with frames := ⟨root, depth, entries⟩ :: frames } :=
      fresh.of_visited rfl (List.Subset.refl _)
    exact left.proceed met_meet went

theorem ends {last : Moment} {outcome : Except ScanError WalkState} (fresh : Fresh moment)
    (follows : context.options.followSymlinks = true) (ends : Ends context moment last outcome) :
    Fresh last := by
  induction ends with
  | now ended => exact fresh
  | later went rest ih => exact ih (fresh.advance follows went)

end Fresh

/-- A walk that follows links ends on every file system. Over the whole walk no directory is entered through
a link that was entered so before, or was walked as a root before. -/
theorem walk_ends (tree : context.fs.IsTree) (follows : context.options.followSymlinks = true)
    (roots : List Path) :
    ∃ last, Ends context { roots } last (walkRoots context roots {}) ∧
      (last.entrances.Pairwise fun later earlier =>
        ∀ location, later = .link location → earlier.location ≠ location) ∧
      ∀ globs, readExcludes context.options.exclude = .ok globs →
        context.excludes = (fun path => globs.any (·.accepts path.text)) →
        walk context.fs roots context.options context.token =
          (walkRoots context roots {}).map (·.output) := by
  have nothing : Entered context.fs 0 {} :=
    ⟨List.nodup_nil, fun _ impossible => (nomatch impossible), Nat.le_refl _⟩
  rcases ends_of_roots tree nothing [] with ⟨last, ends⟩
  have begins : Fresh { roots } := ⟨fun _ impossible => (nomatch impossible), List.Pairwise.nil⟩
  exact ⟨last, ends, (begins.ends follows ends).apart, fun globs read excludes => walk_eq read excludes roots⟩

/-- Links to the directory they stand in and to one above it, to each other, to themselves and to nothing. -/
def tangled : Context where
  fs := {
    nodes := [([], .directory), (["p"], .directory), (["p", "here"], .link ⟨"."⟩),
      (["p", "up"], .link ⟨".."⟩), (["p", "other"], .link ⟨"../q/other"⟩), (["q"], .directory),
      (["q", "other"], .link ⟨"../p/other"⟩), (["q", "self"], .link ⟨"self"⟩),
      (["q", "gone"], .link ⟨"nothing"⟩), (["q", "p"], .link ⟨"/p"⟩)]
    current := [] }
  options := { maxFileSize := 1000, followSymlinks := true }
  excludes _ := false

theorem walk_ends_tangled :
    tangled.fs.IsTree ∧ ∃ last,
      Ends tangled { roots := [⟨"p"⟩, ⟨"q"⟩] } last (walkRoots tangled [⟨"p"⟩, ⟨"q"⟩] {}) ∧
      last.entrances.Pairwise fun later earlier =>
        ∀ location, later = .link location → earlier.location ≠ location := by
  have tree : tangled.fs.IsTree :=
    FileSystem.isTree_of_isPlaced (by decide +kernel) (by decide +kernel) (by decide +kernel)
      (by decide +kernel)
  rcases walk_ends tree rfl [⟨"p"⟩, ⟨"q"⟩] with ⟨last, ends, apart, -⟩
  exact ⟨tree, last, ends, apart⟩

end DepAtlas.Walk
