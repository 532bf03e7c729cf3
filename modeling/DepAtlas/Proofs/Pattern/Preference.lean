import DepAtlas.Proofs.Pattern.Confinement

/-!
The search agrees with trying out. `Pattern.ways` lists the ways in which a pattern can match from a place,
the preferred one first, as one would try them from left to right; the search reads the text from its end
and keeps a single completion, and finds at every place the first of these ways.
-/

namespace DepAtlas

open Text (Cursor Span)

/-- One way to match: where it ends, and the stretches to be remembered, those that start first in
front. -/
structure Way where
  stop : Cursor
  stretches : List (Label × Span)

/-- A way, and then another one from where it ends. -/
def Way.followedBy (first second : Way) : Way :=
  ⟨second.stop, first.stretches ++ second.stretches⟩

namespace Completion

/-- Remembers a stretch unless a later one is remembered under its label. -/
def remember (completion : Completion) (label : Label) (span : Span) : Completion :=
  { completion with
    captures :=
      if (completion.captures.get? label).isSome then completion.captures
      else completion.captures.insert label span }

/-- Remembers several stretches, the last one first. -/
def rememberAll (stretches : List (Label × Span)) (completion : Completion) : Completion :=
  stretches.foldr (fun stretch later => later.remember stretch.1 stretch.2) completion

theorem rememberAll_nil : rememberAll [] = id := rfl

theorem rememberAll_append (first second : List (Label × Span)) (completion : Completion) :
    rememberAll (first ++ second) completion = rememberAll first (rememberAll second completion) :=
  List.foldr_append

theorem rememberAll_stop (stretches : List (Label × Span)) (completion : Completion) (stop : Nat) :
    rememberAll stretches { completion with stop } = { rememberAll stretches completion with stop } := by
  induction stretches with
  | nil => rfl
  | cons stretch stretches ih =>
    show (rememberAll stretches { completion with stop }).remember _ _ = _
    rw [ih]
    rfl

theorem rememberAll_close (stretches : List (Label × Span)) (completion : Completion) (offset : Nat) :
    rememberAll stretches (completion.close offset) = (rememberAll stretches completion).close offset := by
  induction stretches with
  | nil => rfl
  | cons stretch stretches ih =>
    show (rememberAll stretches (completion.close offset)).remember _ _ = _
    rw [ih]
    rfl

theorem start_close (completion : Completion) (label : Label) (cursor : Cursor) (offset : Nat) :
    (completion.close offset).start label cursor = completion.remember label ⟨cursor, offset⟩ := rfl

end Completion

namespace Pattern

/-- The places after a run of characters of a set, beginning with the empty run. -/
def runs (set : CharSet) (cursor : Cursor) : Text → List Cursor
  | [] => [cursor]
  | c :: rest => cursor :: if set c then runs set (cursor.step c rest) rest else []

/-- Any number of copies, each of which consumes a character, as many as possible first. -/
def copies (ways : Cursor → List Way) (cursor : Cursor) : List Way :=
  let shorter := (ways cursor).filter fun way => way.stop.rest.length < cursor.rest.length
  (shorter.attach.flatMap fun way => (copies ways way.1.stop).map way.1.followedBy) ++ [⟨cursor, []⟩]
termination_by cursor.rest.length
decreasing_by simpa using (List.mem_filter.mp way.2).2

/-- The ways in which a pattern can match from a place, in the order of preference. -/
@[grind =] def ways : Pattern → Cursor → List Way
  | empty, cursor => [⟨cursor, []⟩]
  | one set, cursor =>
    match cursor.rest with
    | [] => []
    | c :: rest => if set c then [⟨cursor.step c rest, []⟩] else []
  | many set, cursor => (runs set cursor cursor.rest).reverse.map (⟨·, []⟩)
  | few set, cursor => (runs set cursor cursor.rest).map (⟨·, []⟩)
  | seq first second, cursor =>
    (first.ways cursor).flatMap fun way => (second.ways way.stop).map way.followedBy
  | alt first second, cursor => first.ways cursor ++ second.ways cursor
  | star body, cursor => copies body.ways cursor
  | capture label body, cursor =>
    (body.ways cursor).map fun way => ⟨way.stop, (label, ⟨cursor, way.stop.offset⟩) :: way.stretches⟩
  | lineStart, cursor => if cursor.atLineStart then [⟨cursor, []⟩] else []
  | wordBoundary, cursor => if cursor.atWordBoundary then [⟨cursor, []⟩] else []

/-- The preferred way to match from a place that can be gone on with. -/
def first (pattern : Pattern) (next : Cursor → Option Completion) (cursor : Cursor) :
    Option Completion :=
  (pattern.ways cursor).findSome? fun way => (next way.stop).map (.rememberAll way.stretches)

/-- What the search keeps of a place, where `next` tells how it goes on after the pattern. -/
def kept : Pattern → (Cursor → Option Completion) → Cursor → Memory
  | one _, next, cursor => .ofCompletion? (next cursor)
  | many set, next, cursor => .ofCompletion? ((many set).first next cursor)
  | few set, next, cursor => .ofCompletion? ((few set).first next cursor)
  | seq first second, next, cursor =>
    .both (first.kept (second.first next) cursor) (second.kept next cursor)
  | alt first second, next, cursor => .both (first.kept next cursor) (second.kept next cursor)
  | star body, next, cursor => body.kept ((star body).first next) cursor
  | capture _ body, next, cursor =>
    body.kept (fun stop => (next stop).map (·.close stop.offset)) cursor
  | empty, _, _ | lineStart, _, _ | wordBoundary, _, _ => .blank

/-- What the search keeps of the place to the right. -/
def keptAfter (pattern : Pattern) (next : Cursor → Option Completion) (cursor : Cursor) : Memory :=
  match cursor.rest with
  | [] => .blank
  | c :: rest => pattern.kept next (cursor.step c rest)

variable {next other : Cursor → Option Completion} {cursor : Cursor} {set : CharSet}

section First

@[simp] theorem first_empty : empty.first next cursor = next cursor := by
  simp [first, ways, Completion.rememberAll_nil]

theorem first_one : (one set).first next cursor =
    match cursor.rest with
    | [] => none
    | c :: rest => if set c then next (cursor.step c rest) else none := by
  rw [first, ways]
  cases cursor.rest with
  | nil => rfl
  | cons c rest => cases isIn : set c <;> simp [isIn, Completion.rememberAll_nil]

theorem first_many : (many set).first next cursor =
    match cursor.rest with
    | [] => next cursor
    | c :: rest =>
      if set c then (many set).first next (cursor.step c rest) <|> next cursor else next cursor := by
  simp only [first, ways, List.findSome?_map]
  cases cursor.rest with
  | nil => simp [runs, Completion.rememberAll_nil]
  | cons c rest =>
    cases isIn : set c <;>
      simp [runs, isIn, Completion.rememberAll_nil, Cursor.step, List.findSome?_append]

theorem first_few : (few set).first next cursor =
    match cursor.rest with
    | [] => next cursor
    | c :: rest =>
      if set c then next cursor <|> (few set).first next (cursor.step c rest) else next cursor := by
  simp only [first, ways, List.findSome?_map]
  cases cursor.rest with
  | nil => simp [runs, Completion.rememberAll_nil]
  | cons c rest =>
    cases isIn : set c <;> cases here : next cursor <;>
      simp [runs, isIn, here, Completion.rememberAll_nil, Cursor.step]

theorem findSome?_flatMap {α β γ : Type} (f : β → Option γ) (g : α → List β) (l : List α) :
    (l.flatMap g).findSome? f = l.findSome? fun a => (g a).findSome? f := by
  induction l with
  | nil => rfl
  | cons a l ih =>
    rw [List.flatMap_cons, List.findSome?_append, List.findSome?_cons, ih]
    cases (g a).findSome? f <;> rfl

theorem first_seq (front back : Pattern) :
    (seq front back).first next cursor = front.first (back.first next) cursor := by
  simp only [first, ways, findSome?_flatMap]
  congr 1
  funext way
  rw [List.findSome?_map, List.map_findSome?]
  congr 1
  funext later
  simp only [Function.comp_apply, Option.map_map]
  congr 1
  funext completion
  exact Completion.rememberAll_append way.stretches later.stretches completion

theorem first_alt (front back : Pattern) :
    (alt front back).first next cursor = (front.first next cursor <|> back.first next cursor) := by
  simp only [first, ways, List.findSome?_append, Option.orElse_eq_orElse, Option.orElse_eq_or]

theorem first_capture (label : Label) (body : Pattern) :
    (capture label body).first next cursor =
      (body.first (fun stop => (next stop).map (·.close stop.offset)) cursor).map
        (·.start label cursor) := by
  simp only [first, ways, List.findSome?_map, List.map_findSome?]
  congr 1
  funext way
  simp only [Function.comp_apply, Option.map_map]
  congr 1
  funext completion
  simp only [Function.comp_apply, Completion.rememberAll_close, Completion.start_close]
  rfl

theorem first_lineStart :
    lineStart.first next cursor = if cursor.atLineStart then next cursor else none := by
  rw [first, ways]
  split <;> simp [Completion.rememberAll_nil]

theorem first_wordBoundary :
    wordBoundary.first next cursor = if cursor.atWordBoundary then next cursor else none := by
  rw [first, ways]
  split <;> simp [Completion.rememberAll_nil]

theorem copies_eq (ways : Cursor → List Way) (cursor : Cursor) :
    copies ways cursor =
      (((ways cursor).filter fun way => way.stop.rest.length < cursor.rest.length).flatMap fun way =>
        (copies ways way.stop).map way.followedBy) ++ [⟨cursor, []⟩] := by
  rw [copies]
  simp only [List.flatMap_subtype, List.unattach_attach]

/-- More copies of a pattern, from a place to the right of where the copy before them began. -/
def again (body : Pattern) (next : Cursor → Option Completion) (cursor stop : Cursor) :
    Option Completion :=
  if stop.rest.length < cursor.rest.length then (star body).first next stop else none

/-- A first copy that consumes a character is followed by more copies. -/
theorem first_star (body : Pattern) :
    (star body).first next cursor = (body.first (body.again next cursor) cursor <|> next cursor) := by
  simp only [first, ways, again]
  rw [copies_eq, List.findSome?_append, Option.orElse_eq_orElse, Option.orElse_eq_or]
  congr 1
  · rw [findSome?_flatMap]
    induction body.ways cursor with
    | nil => rfl
    | cons way more ih =>
      by_cases shorter : way.stop.rest.length < cursor.rest.length
      · rw [List.filter_cons_of_pos (by simpa using shorter), List.findSome?_cons, List.findSome?_cons, ih,
          if_pos shorter, List.findSome?_map, List.map_findSome?]
        congr 2
        funext later
        simp only [Function.comp_apply, Option.map_map]
        congr 1
        funext completion
        exact Completion.rememberAll_append way.stretches later.stretches completion
      · rw [List.filter_cons_of_neg (by simpa using shorter), List.findSome?_cons, ih, if_neg shorter]
        rfl
  · simp [Completion.rememberAll_nil]

end First

/-- Every character that a pattern reads is allowed. -/
def Spells (allowed : Char → Prop) : Pattern → Prop
  | one set | many set | few set => ∀ c, set c = true → allowed c
  | seq first second | alt first second => first.Spells allowed ∧ second.Spells allowed
  | star body | capture _ body => body.Spells allowed
  | empty | lineStart | wordBoundary => True

theorem spells_any (pattern : Pattern) : pattern.Spells fun _ => True := by
  induction pattern with
  | one | many | few => exact fun _ _ => trivial
  | seq _ _ first second | alt _ _ first second => exact ⟨first, second⟩
  | star _ ih | capture _ _ ih => exact ih
  | empty | lineStart | wordBoundary => trivial

/-- A way is made of single allowed characters and of captured parts. -/
inductive Leads (allowed : Char → Prop) : Cursor → Way → Prop
  | stay (cursor : Cursor) : Leads allowed cursor ⟨cursor, []⟩
  | through {cursor : Cursor} {c : Char} {rest : Text} (reads : cursor.rest = c :: rest)
      (isAllowed : allowed c) : Leads allowed cursor ⟨cursor.step c rest, []⟩
  | follow {cursor : Cursor} {front back : Way} (first : Leads allowed cursor front)
      (second : Leads allowed front.stop back) : Leads allowed cursor (front.followedBy back)
  | capture {cursor : Cursor} {way : Way} (label : Label) (inner : Leads allowed cursor way) :
      Leads allowed cursor ⟨way.stop, (label, ⟨cursor, way.stop.offset⟩) :: way.stretches⟩

variable {allowed : Char → Prop}

theorem leads_of_mem_runs (spells : ∀ c, set c = true → allowed c) {text : Text} {stop : Cursor}
    (reads : cursor.rest = text) (member : stop ∈ runs set cursor text) :
    Leads allowed cursor ⟨stop, []⟩ := by
  induction text generalizing cursor with
  | nil =>
    cases List.mem_singleton.mp member
    exact .stay _
  | cons c rest ih =>
    rcases List.mem_cons.mp member with rfl | member
    · exact .stay stop
    · split at member
      case isTrue isIn => exact (Leads.through reads (spells c isIn)).follow (ih rfl member)
      case isFalse => cases member

/-- Copies are a way of one copy after the other. -/
theorem copies_induction {ways : Cursor → List Way} {motive : Cursor → Way → Prop}
    (stay : ∀ cursor, motive cursor ⟨cursor, []⟩)
    (follow : ∀ cursor, ∀ front ∈ ways cursor, ∀ back, motive front.stop back →
      motive cursor (front.followedBy back))
    {way : Way} (member : way ∈ copies ways cursor) : motive cursor way := by
  induction size : cursor.rest.length using Nat.strongRecOn generalizing cursor way with
  | ind size ih =>
    rw [copies_eq] at member
    rcases List.mem_append.mp member with member | member
    · obtain ⟨front, isFront, member⟩ := List.mem_flatMap.mp member
      obtain ⟨back, isBack, rfl⟩ := List.mem_map.mp member
      obtain ⟨among, shorter⟩ := List.mem_filter.mp isFront
      exact follow cursor front among back (ih _ (by simpa [← size] using shorter) isBack rfl)
    · cases List.mem_singleton.mp member
      exact stay cursor

theorem leads_of_mem_ways {pattern : Pattern} (spells : pattern.Spells allowed) {way : Way}
    (member : way ∈ pattern.ways cursor) : Leads allowed cursor way := by
  induction pattern generalizing cursor way with
  | empty =>
    cases List.mem_singleton.mp member
    exact .stay cursor
  | one set =>
    rw [ways] at member
    split at member
    · cases member
    · rename_i c rest reads
      split at member
      case isTrue isIn =>
        cases List.mem_singleton.mp member
        exact .through reads (spells c isIn)
      case isFalse => cases member
  | many set =>
    obtain ⟨stop, run, rfl⟩ := List.mem_map.mp member
    exact leads_of_mem_runs spells rfl (List.mem_reverse.mp run)
  | few set =>
    obtain ⟨stop, run, rfl⟩ := List.mem_map.mp member
    exact leads_of_mem_runs spells rfl run
  | seq first second firstIh secondIh =>
    obtain ⟨front, isFront, member⟩ := List.mem_flatMap.mp member
    obtain ⟨back, isBack, rfl⟩ := List.mem_map.mp member
    have leads := firstIh spells.1 isFront
    exact leads.follow (secondIh spells.2 isBack)
  | alt first second firstIh secondIh =>
    rcases List.mem_append.mp member with member | member
    · exact firstIh spells.1 member
    · exact secondIh spells.2 member
  | star body ih =>
    exact copies_induction (motive := Leads allowed) .stay
      (fun _ _ isFront _ back => (ih spells isFront).follow back) member
  | capture label body ih =>
    obtain ⟨inner, isInner, rfl⟩ := List.mem_map.mp member
    have leads := ih spells isInner
    exact leads.capture label
  | lineStart | wordBoundary =>
    rw [ways] at member
    split at member
    · cases List.mem_singleton.mp member
      exact .stay cursor
    · cases member

theorem Leads.length_le {way : Way} (leads : Leads allowed cursor way) :
    way.stop.rest.length ≤ cursor.rest.length := by
  induction leads with
  | stay => exact Nat.le_refl _
  | @through cursor c rest reads =>
    rw [reads]
    exact Nat.le_succ _
  | follow _ _ firstIh secondIh => exact Nat.le_trans secondIh firstIh
  | capture _ _ ih => exact ih

/-- Only the places to the right matter. -/
theorem first_congr (pattern : Pattern)
    (same : ∀ stop : Cursor, stop.rest.length ≤ cursor.rest.length → next stop = other stop) :
    pattern.first next cursor = pattern.first other cursor := by
  rw [first, first, ← List.head?_filterMap, ← List.head?_filterMap]
  refine congrArg List.head? (List.filterMap_congr fun way member => ?_)
  rw [same way.stop (leads_of_mem_ways pattern.spells_any member).length_le]

theorem kept_congr (pattern : Pattern)
    (same : ∀ stop : Cursor, stop.rest.length ≤ cursor.rest.length → next stop = other stop) :
    pattern.kept next cursor = pattern.kept other cursor := by
  have further (inner : Pattern) (stop : Cursor) (right : stop.rest.length ≤ cursor.rest.length) :
      inner.first next stop = inner.first other stop :=
    first_congr inner fun later inside => same later (Nat.le_trans inside right)
  induction pattern generalizing next other with
  | empty | lineStart | wordBoundary => rfl
  | one set => exact congrArg Memory.ofCompletion? (same cursor (Nat.le_refl _))
  | many set | few set => exact congrArg Memory.ofCompletion? (further _ cursor (Nat.le_refl _))
  | seq first second firstIh secondIh =>
    exact congrArg₂ Memory.both
      (firstIh (further second) fun inner stop right =>
        first_congr inner fun later inside => further second later (Nat.le_trans inside right))
      (secondIh same further)
  | alt first second firstIh secondIh =>
    exact congrArg₂ Memory.both (firstIh same further) (secondIh same further)
  | star body ih =>
    exact ih (further (star body)) fun inner stop right =>
      first_congr inner fun later inside => further (star body) later (Nat.le_trans inside right)
  | capture label body ih =>
    have closed (stop : Cursor) (right : stop.rest.length ≤ cursor.rest.length) :
        (next stop).map (·.close stop.offset) = (other stop).map (·.close stop.offset) :=
      congrArg _ (same stop right)
    exact ih closed fun inner stop right =>
      first_congr inner fun later inside => closed later (Nat.le_trans inside right)

theorem isBlank_iff {memory : Memory} : memory.isBlank = true ↔ memory = .blank := by
  cases memory <;> simp [Memory.isBlank]

theorem both_eq_blank {first second : Memory} :
    first.both second = .blank ↔ first = .blank ∧ second = .blank := by
  cases first <;> cases second <;> simp [Memory.both]

theorem ofCompletion?_eq_blank {completion : Option Completion} :
    Memory.ofCompletion? completion = .blank ↔ completion = none := by
  cases completion <;> simp [Memory.ofCompletion?]

theorem again_self (body : Pattern) : body.again next cursor cursor = none :=
  if_neg (Nat.lt_irrefl _)

/-- To the right of a place there may be any number of further copies. -/
theorem keptAfter_again (body : Pattern) :
    (star body).keptAfter next cursor = body.keptAfter (body.again next cursor) cursor := by
  unfold keptAfter
  split
  · rfl
  · rename_i c rest reads
    refine kept_congr body fun stop right => ?_
    have shorter : stop.rest.length < cursor.rest.length := by
      rw [reads]
      exact Nat.lt_succ_of_le right
    exact (if_pos shorter).symm

theorem keptAfter_seq (front back : Pattern) :
    (seq front back).keptAfter next cursor =
      .both (front.keptAfter (back.first next) cursor) (back.keptAfter next cursor) := by
  unfold keptAfter
  split <;> rfl

theorem keptAfter_alt (front back : Pattern) :
    (alt front back).keptAfter next cursor =
      .both (front.keptAfter next cursor) (back.keptAfter next cursor) := by
  unfold keptAfter
  split <;> rfl

section Through

/-- A character of the set is read, and then what was kept of the place after it applies. -/
theorem through_keptAfter {pattern : Pattern} {after : Cursor → Option Completion}
    (isKept : ∀ stop, pattern.kept next stop = .ofCompletion? (after stop)) :
    through set cursor (pattern.keptAfter next cursor) =
      match cursor.rest with
      | [] => none
      | c :: rest => if set c then after (cursor.step c rest) else none := by
  unfold through keptAfter
  cases cursor.rest with
  | nil => rfl
  | cons c rest =>
    dsimp only
    rw [isKept, Memory.completion?_ofCompletion?]
    cases after (cursor.step c rest) <;> cases set c <;> simp

theorem through_blank : through set cursor .blank = none := by
  unfold through
  split <;> rfl

theorem first_one_eq_through :
    (one set).first next cursor = through set cursor ((one set).keptAfter next cursor) := by
  rw [through_keptAfter fun _ => rfl, first_one]

theorem first_many_eq_through :
    (many set).first next cursor =
      (through set cursor ((many set).keptAfter next cursor) <|> next cursor) := by
  rw [through_keptAfter fun _ => rfl, first_many]
  cases cursor.rest with
  | nil => rfl
  | cons c rest => by_cases isIn : set c <;> simp [isIn]

theorem first_few_eq_through :
    (few set).first next cursor =
      (next cursor <|> through set cursor ((few set).keptAfter next cursor)) := by
  rw [through_keptAfter fun _ => rfl, first_few]
  cases cursor.rest with
  | nil => cases next cursor <;> rfl
  | cons c rest => by_cases isIn : set c <;> cases next cursor <;> simp [isIn]

end Through

/-- Where nothing is kept to the right and a pattern cannot be gone on with, there is nothing. -/
theorem none_of_blank (pattern : Pattern) (blank : pattern.keptAfter next cursor = .blank)
    (stuck : next cursor = none) :
    pattern.first next cursor = none ∧ pattern.kept next cursor = .blank := by
  induction pattern generalizing next with
  | empty => exact ⟨first_empty.trans stuck, rfl⟩
  | lineStart =>
    rw [first_lineStart, stuck]
    exact ⟨ite_self none, rfl⟩
  | wordBoundary =>
    rw [first_wordBoundary, stuck]
    exact ⟨ite_self none, rfl⟩
  | one set =>
    have here : (one set).first next cursor = none := by
      rw [first_one_eq_through, blank, through_blank]
    exact ⟨here, ofCompletion?_eq_blank.mpr stuck⟩
  | many set =>
    have here : (many set).first next cursor = none := by
      rw [first_many_eq_through, blank, through_blank, stuck]
      rfl
    exact ⟨here, ofCompletion?_eq_blank.mpr here⟩
  | few set =>
    have here : (few set).first next cursor = none := by
      rw [first_few_eq_through, blank, through_blank, stuck]
      rfl
    exact ⟨here, ofCompletion?_eq_blank.mpr here⟩
  | seq first second firstIh secondIh =>
    obtain ⟨blankFirst, blankSecond⟩ := both_eq_blank.mp ((keptAfter_seq first second).symm.trans blank)
    obtain ⟨later, laterKept⟩ := secondIh blankSecond stuck
    obtain ⟨here, hereKept⟩ := firstIh blankFirst later
    exact ⟨(first_seq first second).trans here, both_eq_blank.mpr ⟨hereKept, laterKept⟩⟩
  | alt first second firstIh secondIh =>
    obtain ⟨blankFirst, blankSecond⟩ := both_eq_blank.mp ((keptAfter_alt first second).symm.trans blank)
    obtain ⟨here, hereKept⟩ := firstIh blankFirst stuck
    obtain ⟨other, otherKept⟩ := secondIh blankSecond stuck
    refine ⟨?_, both_eq_blank.mpr ⟨hereKept, otherKept⟩⟩
    rw [first_alt, here, other]
    rfl
  | star body ih =>
    have copy := (ih (keptAfter_again body ▸ blank) (again_self body)).1
    have here : (star body).first next cursor = none := by
      rw [first_star, copy, stuck]
      rfl
    exact ⟨here, (ih blank here).2⟩
  | capture label body ih =>
    have closed : (fun stop => (next stop).map (·.close stop.offset)) cursor = none := by
      dsimp only
      rw [stuck]
      rfl
    obtain ⟨here, hereKept⟩ := ih blank closed
    refine ⟨?_, hereKept⟩
    rw [first_capture, here]
    rfl

theorem unless_blank {pattern : Pattern} {result : Option Completion × Memory}
    (same : result = (pattern.first next cursor, pattern.kept next cursor)) :
    (if (pattern.keptAfter next cursor).isBlank && (next cursor).isNone then (none, .blank)
      else result) = (pattern.first next cursor, pattern.kept next cursor) := by
  split
  case isTrue idle =>
    obtain ⟨blank, stuck⟩ := Bool.and_eq_true_iff.mp idle
    obtain ⟨here, hereKept⟩ :=
      none_of_blank pattern (isBlank_iff.mp blank) (Option.isNone_iff_eq_none.mp stuck)
    rw [here, hereKept]
  case isFalse => exact same

/-- Taking a pattern to a place finds the first way to match from there, and keeps what is to be kept. -/
theorem step_eq (pattern : Pattern) (next : Cursor → Option Completion) (cursor : Cursor) :
    pattern.step cursor (pattern.keptAfter next cursor) (next cursor) =
      (pattern.first next cursor, pattern.kept next cursor) := by
  induction pattern generalizing next with
  | empty =>
    rw [step]
    exact unless_blank (by rw [first_empty, kept])
  | lineStart =>
    rw [step]
    refine unless_blank ?_
    rw [first_lineStart]
    cases next cursor <;> cases cursor.atLineStart <;> simp [kept]
  | wordBoundary =>
    rw [step]
    refine unless_blank ?_
    rw [first_wordBoundary]
    cases next cursor <;> cases cursor.atWordBoundary <;> simp [kept]
  | one set =>
    rw [step]
    refine unless_blank ?_
    rw [← first_one_eq_through]
    rfl
  | many set =>
    rw [step]
    refine unless_blank ?_
    dsimp only
    rw [← first_many_eq_through]
    rfl
  | few set =>
    rw [step]
    refine unless_blank ?_
    dsimp only
    rw [← first_few_eq_through]
    rfl
  | seq front back frontIh backIh =>
    rw [step]
    refine unless_blank ?_
    simp only [keptAfter_seq, Memory.first_both, Memory.second_both, backIh, frontIh, first_seq]
    rfl
  | alt front back frontIh backIh =>
    rw [step]
    refine unless_blank ?_
    simp only [keptAfter_alt, Memory.first_both, Memory.second_both, backIh, frontIh, first_alt]
    rfl
  | star body ih =>
    rw [step]
    refine unless_blank ?_
    -- The first copy may not stay where it is, so that it goes on with nothing from here.
    have copy := ih (body.again next cursor)
    rw [again_self, ← keptAfter_again] at copy
    have more := ih ((star body).first next)
    simp only [copy, ← first_star]
    exact congrArg (fun result => ((star body).first next cursor, result.2)) more
  | capture label body ih =>
    rw [step]
    refine unless_blank ?_
    have closed := ih fun stop => (next stop).map (·.close stop.offset)
    simp only [first_capture]
    exact congrArg (fun result => (result.1.map (·.start label cursor), result.2)) closed

/-- The match that begins at a place, if there is one. -/
def hitAt (pattern : Pattern) (cursor : Cursor) : Option Hit :=
  (pattern.first (fun stop => some { stop := stop.offset }) cursor).map fun found =>
    ⟨⟨cursor, found.stop⟩, found.captures⟩

theorem visit_places (pattern : Pattern) (text : Text) (cursor : Cursor) (reads : cursor.rest = text) :
    (cursor.placesFrom text).foldr (fun place state => pattern.visit state place) (.blank, []) =
      (pattern.kept (fun stop => some { stop := stop.offset }) cursor,
        (cursor.placesFrom text).filterMap pattern.hitAt) := by
  have visited (found : List Hit) :
      pattern.visit (pattern.keptAfter (fun stop => some { stop := stop.offset }) cursor, found) cursor =
        (pattern.kept (fun stop => some { stop := stop.offset }) cursor,
          (pattern.hitAt cursor).toList ++ found) := by
    simp only [visit, step_eq, hitAt]
    cases pattern.first (fun stop => some { stop := stop.offset }) cursor <;> rfl
  have keptNext := visited
  rw [keptAfter, reads] at keptNext
  cases text with
  | nil =>
    rw [Text.Cursor.placesFrom, List.foldr_cons, List.foldr_nil, keptNext]
    cases found : pattern.hitAt cursor <;> simp [found]
  | cons c rest =>
    rw [Text.Cursor.placesFrom, List.foldr_cons,
      visit_places pattern rest (cursor.step c rest) rfl, keptNext]
    cases found : pattern.hitAt cursor <;> simp [found]

/-- The candidates are the matches that begin at the places of a text, in their order. -/
theorem candidates_eq (pattern : Pattern) (text : Text) :
    pattern.candidates text = ((Cursor.start text).placesFrom text).filterMap pattern.hitAt := by
  rw [candidates, Text.Cursor.placesBackward, Text.Cursor.placesBackward_go, List.append_nil,
    List.foldl_reverse, visit_places pattern text (Cursor.start text) rfl]

/-- At every place the search finds the first of the ways to match, with what it remembers. -/
theorem hitAt_eq (pattern : Pattern) (cursor : Cursor) :
    pattern.hitAt cursor = (pattern.ways cursor).head?.map fun way =>
      ⟨⟨cursor, way.stop.offset⟩, (Completion.rememberAll way.stretches { stop := 0 }).captures⟩ := by
  rw [hitAt, first]
  cases pattern.ways cursor with
  | nil => rfl
  | cons way others =>
    have stops := Completion.rememberAll_stop way.stretches { stop := 0 } way.stop.offset
    simp [stops]

end Pattern

end DepAtlas
