import Mathlib.Data.List.Forall2
import DepAtlas.Pattern.Search
import DepAtlas.Proofs.Text.Basic

/-!
Where captured names lie. A match is put together from the end of the text to its start, so a captured
stretch is known by its end before its start is reached; what has been read since then is kept free of
line ends by a pattern whose captures exclude them. Hence each captured name is a stretch of the text
within one line.
-/

namespace DepAtlas

namespace Text

/-- A place of a text: the characters before it have as many bytes as its offset says. -/
def Cursor.IsIn (cursor : Cursor) (text : Text) : Prop :=
  ∃ front, text = front ++ cursor.rest ∧ cursor.offset = byteLength front

/-- From a place to an offset there is no line end. -/
def Cursor.Reaches (cursor : Cursor) (stop : Nat) : Prop :=
  ∃ stretch back, cursor.rest = stretch ++ back ∧ stop = cursor.offset + byteLength stretch ∧
    '\n' ∉ stretch

/-- A stretch of a text within one line. -/
structure Span.OnLine (span : Span) (text : Text) : Prop where
  isIn : span.start.IsIn text
  reaches : span.start.Reaches span.stop

theorem Cursor.isIn_step {text : Text} {cursor : Cursor} {c : Char} {rest : Text}
    (isIn : cursor.IsIn text) (next : cursor.rest = c :: rest) : (cursor.step c rest).IsIn text := by
  obtain ⟨front, whole, offset⟩ := isIn
  refine ⟨front ++ [c], ?_, ?_⟩
  · rw [whole, next, List.append_assoc]
    rfl
  · rw [byteLength_append, ← offset]
    rfl

theorem Cursor.reaches_self (cursor : Cursor) : cursor.Reaches cursor.offset :=
  ⟨[], cursor.rest, rfl, rfl, by simp⟩

theorem Cursor.Reaches.back {cursor : Cursor} {c : Char} {rest : Text} {stop : Nat}
    (reaches : (cursor.step c rest).Reaches stop) (next : cursor.rest = c :: rest) (inner : c ≠ '\n') :
    cursor.Reaches stop := by
  obtain ⟨stretch, back, parts, ends, clean⟩ := reaches
  refine ⟨c :: stretch, back, ?_, ?_, ?_⟩
  · rw [next, List.cons_append]
    exact congrArg (c :: ·) parts
  · rw [ends]
    exact Nat.add_assoc _ _ _
  · simp [Ne.symm inner, clean]

/-- The characters of a stretch within one line, with what stands around them. -/
theorem Span.OnLine.exists_parts {span : Span} {text : Text} (onLine : span.OnLine text) :
    ∃ front back, text = front ++ span.text ++ back ∧ span.offset = byteLength front ∧
      '\n' ∉ span.text := by
  obtain ⟨⟨front, whole, offset⟩, stretch, back, parts, ends, clean⟩ := onLine
  have same : span.text = stretch := by
    rw [Span.text, ends, Nat.add_sub_cancel_left, parts, takeBytes_byteLength_append]
  refine ⟨front, back, ?_, offset, same ▸ clean⟩
  rw [same, whole, parts, List.append_assoc]

end Text

open Text (Cursor Span)

/-- What is known of a completion from a place on: a captured name lies within a line, and so far does one
whose start has not been reached. `opened` are the labels of the stretches that are open there, the
innermost first. -/
structure Completion.Sound (text : Text) (cursor : Cursor) (opened : List Label)
    (completion : Completion) : Prop where
  named : ∀ span, completion.captures.subject = some span → span.OnLine text
  ends : List.Forall₂ (fun label stop => label = .subject → cursor.Reaches stop) opened completion.ends

namespace Pattern

/-- Whether the names that a pattern captures hold no line end. `inside` says that the pattern is part of
such a name. -/
def confines (inside : Bool) : Pattern → Bool
  | one set | many set | few set => !(inside && set '\n')
  | seq first second | alt first second => first.confines inside && second.confines inside
  | star body => body.confines inside
  | capture label body => body.confines (inside || label == .subject)
  | empty | lineStart | wordBoundary => true

/-- What is kept of a place is sound there. -/
def Kept (text : Text) (cursor : Cursor) : List Label → Pattern → Memory → Prop
  | opened, one _, memory | opened, many _, memory | opened, few _, memory =>
    ∀ completion, memory.completion? = some completion → completion.Sound text cursor opened
  | opened, seq first second, memory | opened, alt first second, memory =>
    Kept text cursor opened first memory.first ∧ Kept text cursor opened second memory.second
  | opened, star body, memory => Kept text cursor opened body memory
  | opened, capture label body, memory => Kept text cursor (label :: opened) body memory
  | _, empty, _ | _, lineStart, _ | _, wordBoundary, _ => True

end Pattern

theorem Memory.first_both (first second : Memory) : (first.both second).first = first := by
  cases first <;> cases second <;> rfl

theorem Memory.second_both (first second : Memory) : (first.both second).second = second := by
  cases first <;> cases second <;> rfl

theorem Memory.completion?_ofCompletion? (completion : Option Completion) :
    (Memory.ofCompletion? completion).completion? = completion := by
  cases completion <;> rfl

namespace Completion.Sound

variable {text : Text} {cursor : Cursor} {opened : List Label} {completion : Completion}

theorem close (sound : completion.Sound text cursor opened) (label : Label) :
    (completion.close cursor.offset).Sound text cursor (label :: opened) where
  named := sound.named
  ends := .cons (fun _ => cursor.reaches_self) sound.ends

theorem start {label : Label} (sound : completion.Sound text cursor (label :: opened))
    (isIn : cursor.IsIn text) : (completion.start label cursor).Sound text cursor opened := by
  obtain ⟨stop, captures, ends⟩ := completion
  obtain ⟨named, ends⟩ := sound
  cases ends with
  | cons reaches rest =>
    refine ⟨fun span found => ?_, rest⟩
    simp only [Completion.start] at found
    split at found
    · exact named span found
    · cases label with
      | subject =>
        cases found
        exact ⟨isIn, reaches rfl⟩
      | base => exact named span found
      | result => exact named span found

/-- A character that may stand in the open stretches takes a completion one place to the left. -/
theorem back {c : Char} {rest : Text} (sound : completion.Sound text (cursor.step c rest) opened)
    (next : cursor.rest = c :: rest) (inner : opened.contains .subject = true → c ≠ '\n') :
    completion.Sound text cursor opened where
  named := sound.named
  ends := by
    have ends := sound.ends
    generalize completion.ends = stops at ends
    clear sound
    induction ends with
    | nil => exact .nil
    | cons reaches _ ih =>
      refine .cons (fun subject => (reaches subject).back next (inner ?_)) (ih fun below => inner ?_)
      · rw [subject, List.contains_cons, BEq.rfl, Bool.true_or]
      · rw [List.contains_cons, below, Bool.or_true]

end Completion.Sound

namespace Pattern

variable {text : Text} {cursor : Cursor}

theorem kept_blank (opened : List Label) (pattern : Pattern) :
    Kept text cursor opened pattern .blank := by
  induction pattern generalizing opened with
  | one set | many set | few set =>
    intro completion kept
    cases kept
  | seq first second firstIh secondIh | alt first second firstIh secondIh =>
    exact ⟨firstIh opened, secondIh opened⟩
  | star body ih => exact ih opened
  | capture label body ih => exact ih (label :: opened)
  | empty | lineStart | wordBoundary => trivial

/-- What can be completed through a character is sound before the character. -/
theorem sound_through {set : CharSet} {memory : Memory} {opened : List Label} {completion : Completion}
    (confined : (!(opened.contains .subject && set '\n')) = true)
    (kept : ∀ c rest, cursor.rest = c :: rest → ∀ completion, memory.completion? = some completion →
      completion.Sound text (cursor.step c rest) opened)
    (found : through set cursor memory = some completion) : completion.Sound text cursor opened := by
  unfold through at found
  split at found
  · cases found
  · rename_i c rest next
    obtain ⟨kept', accepted⟩ := Option.filter_eq_some_iff.mp found
    refine (kept c rest next completion kept').back next fun inside lineEnd => ?_
    subst lineEnd
    rw [inside, accepted] at confined
    cases confined

/-- What a pattern yields at a place is sound: the completion, and what is kept. -/
structure SoundAt (text : Text) (cursor : Cursor) (opened : List Label) (pattern : Pattern)
    (result : Option Completion × Memory) : Prop where
  sound : ∀ completion, result.1 = some completion → completion.Sound text cursor opened
  kept : Kept text cursor opened pattern result.2

theorem SoundAt.unless_blank {opened : List Label} {pattern : Pattern} {condition : Bool}
    {result : Option Completion × Memory} (soundAt : SoundAt text cursor opened pattern result) :
    SoundAt text cursor opened pattern (if condition then (none, .blank) else result) := by
  split
  · exact ⟨fun _ found => (nomatch found), kept_blank opened pattern⟩
  · exact soundAt

theorem sound_orElse {opened : List Label} {first second : Option Completion}
    (soundFirst : ∀ completion, first = some completion → completion.Sound text cursor opened)
    (soundSecond : ∀ completion, second = some completion → completion.Sound text cursor opened)
    (completion : Completion) (found : (first <|> second) = some completion) :
    completion.Sound text cursor opened := by
  cases first with
  | none => exact soundSecond completion found
  | some here => exact soundFirst completion found

/-- Taking a pattern to a place keeps everything sound. -/
theorem soundAt_step (isIn : cursor.IsIn text) (pattern : Pattern) {opened : List Label}
    (confined : pattern.confines (opened.contains .subject) = true) {memory : Memory}
    (kept : ∀ c rest, cursor.rest = c :: rest → Kept text (cursor.step c rest) opened pattern memory)
    (next : Option Completion)
    (sound : ∀ completion, next = some completion → completion.Sound text cursor opened) :
    SoundAt text cursor opened pattern (pattern.step cursor memory next) := by
  induction pattern generalizing opened memory next with
  | empty =>
    rw [step]
    exact SoundAt.unless_blank ⟨sound, trivial⟩
  | one set =>
    rw [step]
    refine SoundAt.unless_blank ⟨fun _ found => sound_through confined kept found, fun _ found => ?_⟩
    rw [Memory.completion?_ofCompletion?] at found
    exact sound _ found
  | many set =>
    rw [step]
    have here := sound_orElse (fun _ found => sound_through confined kept found) sound
    refine SoundAt.unless_blank ⟨here, fun completion found => ?_⟩
    rw [Memory.completion?_ofCompletion?] at found
    exact here completion found
  | few set =>
    rw [step]
    have here := sound_orElse sound fun _ found => sound_through confined kept found
    refine SoundAt.unless_blank ⟨here, fun completion found => ?_⟩
    rw [Memory.completion?_ofCompletion?] at found
    exact here completion found
  | seq first second firstIh secondIh =>
    rw [step]
    obtain ⟨confinedFirst, confinedSecond⟩ := Bool.and_eq_true_iff.mp confined
    have later := secondIh confinedSecond (fun c rest next => (kept c rest next).2) next sound
    have here := firstIh confinedFirst (fun c rest next => (kept c rest next).1) _ later.sound
    refine SoundAt.unless_blank ⟨here.sound, ?_, ?_⟩
    · rw [Memory.first_both]
      exact here.kept
    · rw [Memory.second_both]
      exact later.kept
  | alt first second firstIh secondIh =>
    rw [step]
    obtain ⟨confinedFirst, confinedSecond⟩ := Bool.and_eq_true_iff.mp confined
    have here := firstIh confinedFirst (fun c rest next => (kept c rest next).1) next sound
    have other := secondIh confinedSecond (fun c rest next => (kept c rest next).2) next sound
    refine SoundAt.unless_blank ⟨sound_orElse here.sound other.sound, ?_, ?_⟩
    · rw [Memory.first_both]
      exact here.kept
    · rw [Memory.second_both]
      exact other.kept
  | star body ih =>
    rw [step]
    -- The body is taken twice, the second time with what the first one and the rest come to.
    have first := ih confined kept none fun _ found => nomatch found
    have here := sound_orElse first.sound sound
    exact SoundAt.unless_blank ⟨here, (ih confined kept _ here).kept⟩
  | capture label body ih =>
    rw [step]
    have inner : body.confines ((label :: opened).contains .subject) = true := by
      rw [List.contains_cons, Bool.or_comm, BEq.comm]
      exact confined
    have closed := ih inner kept (next.map (·.close cursor.offset)) fun completion found => by
      obtain ⟨before, isNext, rfl⟩ := Option.map_eq_some_iff.mp found
      exact (sound before isNext).close label
    refine SoundAt.unless_blank ⟨fun completion found => ?_, closed.kept⟩
    obtain ⟨before, isHere, rfl⟩ := Option.map_eq_some_iff.mp found
    exact (closed.sound before isHere).start isIn
  | lineStart | wordBoundary =>
    rw [step]
    refine SoundAt.unless_blank ⟨fun completion found => ?_, trivial⟩
    exact sound completion (Option.filter_eq_some_iff.mp found).1

end Pattern

namespace Text.Cursor

/-- The places of a text from a cursor on, the first one first. -/
def placesFrom (cursor : Cursor) : Text → List Cursor
  | [] => [cursor]
  | c :: rest => cursor :: placesFrom (cursor.step c rest) rest

theorem placesBackward_go (found : List Cursor) (cursor : Cursor) (text : Text) :
    placesBackward.go found cursor text = (cursor.placesFrom text).reverse ++ found := by
  induction text generalizing found cursor with
  | nil => rfl
  | cons c rest ih => simp [placesBackward.go, placesFrom, ih]

end Text.Cursor

namespace Pattern

variable {text : Text} {pattern : Pattern}

/-- After a place is visited, what is kept is sound there, and the matches found so far capture names that
lie within a line. -/
structure Visited (text : Text) (cursor : Cursor) (pattern : Pattern) (state : Memory × List Hit) :
    Prop where
  kept : Kept text cursor [] pattern state.1
  named : ∀ hit ∈ state.2, ∀ span, hit.captures.subject = some span → span.OnLine text

theorem visited_visit (confined : pattern.confines false = true) {cursor : Cursor}
    (isIn : cursor.IsIn text) {state : Memory × List Hit}
    (kept : ∀ c rest, cursor.rest = c :: rest → Kept text (cursor.step c rest) [] pattern state.1)
    (named : ∀ hit ∈ state.2, ∀ span, hit.captures.subject = some span → span.OnLine text) :
    Visited text cursor pattern (pattern.visit state cursor) := by
  have ends (completion : Completion) (same : some { stop := cursor.offset } = some completion) :
      completion.Sound text cursor [] := by
    cases same
    exact ⟨fun _ found => (nomatch found), .nil⟩
  have soundAt := @soundAt_step text cursor isIn pattern [] confined _ kept _ ends
  unfold visit
  split
  · rename_i found memory stepped
    rw [stepped] at soundAt
    refine ⟨soundAt.kept, fun hit member => ?_⟩
    rcases List.mem_cons.mp member with rfl | member
    · exact (soundAt.sound found rfl).named
    · exact named hit member
  · rename_i memory stepped
    rw [stepped] at soundAt
    exact ⟨soundAt.kept, named⟩

theorem visited_places (confined : pattern.confines false = true) (rest : Text) {cursor : Cursor}
    (isIn : cursor.IsIn text) (reads : cursor.rest = rest) :
    Visited text cursor pattern
      ((cursor.placesFrom rest).foldr (fun cursor state => pattern.visit state cursor) (.blank, [])) := by
  induction rest generalizing cursor with
  | nil =>
    refine visited_visit confined isIn (fun c rest next => ?_) fun _ member => nomatch member
    rw [reads] at next
    cases next
  | cons c rest ih =>
    have right := ih (Text.Cursor.isIn_step isIn reads) rfl
    refine visited_visit confined isIn (fun c' rest' next => ?_) right.named
    obtain ⟨rfl, rfl⟩ := List.cons.inj (reads.symm.trans next)
    exact right.kept

theorem mem_of_mem_keepDisjoint {candidates : List Hit} {state : Nat × List Hit} {hit : Hit}
    (member : hit ∈ (candidates.foldl keepDisjoint state).2) : hit ∈ state.2 ∨ hit ∈ candidates := by
  induction candidates generalizing state with
  | nil => exact .inl member
  | cons first rest ih =>
    rcases ih member with earlier | later
    · unfold keepDisjoint at earlier
      split at earlier
      · rcases List.mem_cons.mp earlier with rfl | earlier
        · exact .inr List.mem_cons_self
        · exact .inl earlier
      · exact .inl earlier
    · exact .inr (List.mem_cons_of_mem _ later)

/-- The names that a confining pattern captures lie within a line of the text. -/
theorem onLine_of_mem_hits (confined : pattern.confines false = true) {hit : Hit}
    (member : hit ∈ pattern.hits text) {span : Span} (found : hit.captures.subject = some span) :
    span.OnLine text := by
  rcases mem_of_mem_keepDisjoint (List.mem_reverse.mp member) with none | candidate
  · cases none
  · rw [candidates, Text.Cursor.placesBackward, Text.Cursor.placesBackward_go, List.append_nil,
      List.foldl_reverse] at candidate
    have first : (Cursor.start text).IsIn text := ⟨[], rfl, rfl⟩
    have visited := visited_places confined text first rfl
    exact visited.named hit candidate span found

end Pattern

end DepAtlas
