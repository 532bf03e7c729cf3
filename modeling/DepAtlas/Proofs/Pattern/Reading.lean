import DepAtlas.Proofs.Pattern.Preference

/-!
Matching a pattern against a text that is known from a place on. A run of characters of a set is read to its
end if what comes after it cannot begin with such a character; then there is nothing to go back to.
-/

namespace DepAtlas

open Text (Cursor Span byteLength)

namespace Text.Cursor

/-- The place between two parts of a text. -/
def between (front back : Text) : Cursor :=
  ⟨front.getLast?, byteLength front, back⟩

variable (front back : Text) (c : Char)

@[simp] theorem offset_between : (between front back).offset = byteLength front := rfl

@[simp] theorem rest_between : (between front back).rest = back := rfl

theorem start_eq (text : Text) : start text = between [] text := rfl

@[simp] theorem step_between : (between front (c :: back)).step c back = between (front ++ [c]) back := by
  simp [between, step, byteLength_append, byteLength]

theorem atLineStart_between :
    (between front back).atLineStart = true ↔ front = [] ∨ ∃ lines, front = lines ++ ['\n'] := by
  rcases List.eq_nil_or_concat front with rfl | ⟨lines, last, rfl⟩
  · simp [between, atLineStart]
  · simp [between, atLineStart]

variable {front back c}

theorem mem_placesFrom {text : Text} {place : Cursor} :
    place ∈ (between front text).placesFrom text ↔
      ∃ before after, text = before ++ after ∧ place = between (front ++ before) after := by
  induction text generalizing front with
  | nil =>
    rw [placesFrom, List.mem_singleton]
    constructor
    · rintro rfl
      exact ⟨[], [], rfl, by rw [List.append_nil]⟩
    · rintro ⟨before, after, parts, rfl⟩
      obtain ⟨rfl, rfl⟩ := List.append_eq_nil_iff.mp parts.symm
      rw [List.append_nil]
  | cons c rest ih =>
    rw [placesFrom, List.mem_cons, step_between, ih]
    constructor
    · rintro (rfl | ⟨before, after, rfl, rfl⟩)
      · exact ⟨[], c :: rest, rfl, by rw [List.append_nil]⟩
      · exact ⟨c :: before, after, rfl, by rw [List.append_assoc, List.singleton_append]⟩
    · rintro ⟨before, after, parts, rfl⟩
      cases before with
      | nil =>
        left
        rw [List.append_nil, ← List.nil_append after, ← parts]
      | cons first before =>
        obtain ⟨rfl, rfl⟩ := List.cons.inj parts
        right
        exact ⟨before, after, rfl, by rw [List.append_assoc, List.singleton_append]⟩

/-- The places of a text begin with those of its front part. -/
theorem exists_placesFrom_append (earlier front back : Text) :
    ∃ places, (between earlier (front ++ back)).placesFrom (front ++ back) =
        places ++ (between (earlier ++ front) back).placesFrom back ∧
      ∀ place ∈ places, ∃ before after, front = before ++ after ∧ after ≠ [] ∧
        place = between (earlier ++ before) (after ++ back) := by
  induction front generalizing earlier with
  | nil => exact ⟨[], by rw [List.append_nil]; rfl, nofun⟩
  | cons c rest ih =>
    obtain ⟨places, parts, begins⟩ := ih (earlier ++ [c])
    refine ⟨between earlier (c :: (rest ++ back)) :: places, ?_, fun place member => ?_⟩
    · rw [List.cons_append, placesFrom, step_between, parts, List.append_assoc, List.singleton_append,
        List.cons_append]
    · rcases List.mem_cons.mp member with rfl | member
      · exact ⟨[], c :: rest, rfl, List.cons_ne_nil c rest, by rw [List.append_nil]; rfl⟩
      · obtain ⟨before, after, whole, filled, rfl⟩ := begins place member
        exact ⟨c :: before, after, by rw [whole]; rfl, filled,
          by rw [List.append_assoc, List.singleton_append]⟩

end Text.Cursor

theorem Text.Span.text_between (front stretch back : Text) :
    (Span.mk (.between front (stretch ++ back)) (byteLength (front ++ stretch))).text = stretch := by
  change takeBytes (byteLength (front ++ stretch) - byteLength front) (stretch ++ back) = stretch
  rw [byteLength_append, Nat.add_sub_cancel_left, takeBytes_byteLength_append]

theorem CharSet.isBlank_of_ident {c : Char} (isIdent : CharSet.ident "" c = true) :
    Text.isBlank c = false := by
  have ascii : c.isAlphanum = true ∨ c = '_' := by simpa [CharSet.ident] using isIdent
  rcases ascii with alphanumeric | rfl
  · have range : (('A'.val ≤ c.val ∧ c.val ≤ 'Z'.val) ∨ ('a'.val ≤ c.val ∧ c.val ≤ 'z'.val)) ∨
        ('0'.val ≤ c.val ∧ c.val ≤ '9'.val) := by
      simp only [Char.isAlphanum, Bool.or_eq_true] at alphanumeric
      rcases alphanumeric with letter | digit
      · rcases Bool.or_eq_true_iff.mp letter with upper | lower
        · exact .inl (.inl (of_decide_eq_true upper))
        · obtain ⟨low, high⟩ := Bool.and_eq_true_iff.mp lower
          exact .inl (.inr ⟨of_decide_eq_true low, of_decide_eq_true high⟩)
      · obtain ⟨low, high⟩ := Bool.and_eq_true_iff.mp digit
        exact .inr ⟨of_decide_eq_true low, of_decide_eq_true high⟩
    simp only [UInt32.le_iff_toNat_le] at range
    change ((65 ≤ c.toNat ∧ c.toNat ≤ 90) ∨ (97 ≤ c.toNat ∧ c.toNat ≤ 122)) ∨
      (48 ≤ c.toNat ∧ c.toNat ≤ 57) at range
    simp only [Text.isBlank, Bool.or_eq_false_iff, Bool.and_eq_false_iff, decide_eq_false_iff_not,
      beq_eq_false_iff_ne]
    omega
  · decide

namespace Pattern

open Text.Cursor (between)

variable {next : Cursor → Option Completion} {set : CharSet} {front back : Text} {c : Char}

/-- The end of a match. -/
def ends (stop : Cursor) : Option Completion :=
  some { stop := stop.offset }

section Known

theorem first_one_between :
    (one set).first next (between front (c :: back)) =
      if set c then next (between (front ++ [c]) back) else none := by
  rw [first_one]
  simp only [Text.Cursor.rest_between, Text.Cursor.step_between]

/-- Where no character of a set follows, there is nothing to read. -/
theorem first_many_stay (stays : ∀ c, back.head? = some c → set c = false) :
    (many set).first next (between front back) = next (between front back) := by
  rw [first_many]
  cases back with
  | nil => rfl
  | cons c back => simp [stays c rfl]

/-- What cannot begin with a character of a set. -/
def Shuns (set : CharSet) (next : Cursor → Option Completion) : Prop :=
  ∀ front c back, set c = true → next (between front (c :: back)) = none

/-- A run is read to its end if what comes after it cannot begin with a character of the run. -/
theorem first_many_run (shuns : Shuns set next) {run : Text} (inside : ∀ c ∈ run, set c = true)
    (stays : ∀ c, back.head? = some c → set c = false) :
    (many set).first next (between front (run ++ back)) = next (between (front ++ run) back) := by
  induction run generalizing front with
  | nil =>
    rw [List.append_nil]
    exact first_many_stay stays
  | cons c run ih =>
    obtain ⟨isIn, insideRun⟩ := List.forall_mem_cons.mp inside
    have here := shuns front c (run ++ back) isIn
    rw [first_many, List.cons_append]
    simp only [Text.Cursor.rest_between, Text.Cursor.step_between, isIn, if_true, ih insideRun, here,
      List.append_assoc, List.singleton_append]
    cases next (between (front ++ c :: run) back) <;> rfl

/-- One character after the other, and then what comes after them. -/
def spell (next : Cursor → Option Completion) (text : Text) : Cursor → Option Completion :=
  text.foldr (fun c later => (one (· == c)).first later) next

theorem first_literal (text : Text) : (literal text).first next = spell next text := by
  have further (text : Text) (before : Pattern) :
      (text.foldl (fun before c => .seq before (.one (· == c))) before).first next =
        before.first (spell next text) := by
    induction text generalizing before with
    | nil => rfl
    | cons c text ih =>
      rw [List.foldl_cons, ih]
      funext cursor
      exact first_seq before _
  cases text with
  | nil => exact funext fun _ => first_empty
  | cons c text => exact further text _

theorem spell_append (text : Text) :
    spell next text (between front (text ++ back)) = next (between (front ++ text) back) := by
  induction text generalizing front with
  | nil => rw [List.nil_append, List.append_nil]; rfl
  | cons c text ih =>
    show (one (· == c)).first (spell next text) (between front (c :: (text ++ back))) = _
    rw [first_one_between, if_pos BEq.rfl, ih, List.append_assoc, List.singleton_append]

theorem spell_ne {other : Char} (text : Text) (apart : ¬ c = other) :
    spell next (other :: text) (between front (c :: back)) = none := by
  show (one (· == other)).first (spell next text) _ = none
  rw [first_one_between, if_neg (by simpa using apart)]

theorem first_append (before after : Pattern) :
    (before ++ after).first next = before.first (after.first next) :=
  funext fun _ => first_seq before after

theorem first_blanks_ink (isInk : Text.isBlank c = false) :
    blanks.first next (between front (c :: back)) = next (between front (c :: back)) := by
  refine first_many_stay ?_
  rintro _ ⟨⟩
  exact isInk

theorem first_opt (body : Pattern) {cursor : Cursor} :
    (opt body).first next cursor = (body.first next cursor <|> next cursor) := by
  rw [opt, first_alt, first_empty]

/-- A pattern that begins with a given character. -/
def Begins (body : Pattern) (c : Char) : Prop :=
  ∀ next, ∃ later text, body.first next = spell later (c :: text)

theorem begins_literal (c : Char) (text : Text) : (literal (c :: text)).Begins c :=
  fun next => ⟨next, text, first_literal _⟩

theorem Begins.append {body : Pattern} (begins : body.Begins c) (after : Pattern) :
    (body ++ after).Begins c := by
  intro next
  rw [first_append]
  exact begins (after.first next)

theorem first_opt_skip {body : Pattern} {other : Char} (begins : body.Begins other) (apart : ¬ c = other) :
    (opt body).first next (between front (c :: back)) = next (between front (c :: back)) := by
  obtain ⟨later, text, spelled⟩ := begins next
  rw [first_opt, spelled, spell_ne text apart]
  rfl

theorem first_many1_run (shuns : Shuns set next) {run : Text} (filled : run ≠ [])
    (inside : ∀ c ∈ run, set c = true) (stays : ∀ c, back.head? = some c → set c = false) :
    (many1 set).first next (between front (run ++ back)) = next (between (front ++ run) back) := by
  obtain ⟨c, run, rfl⟩ := List.exists_cons_of_ne_nil filled
  obtain ⟨isIn, insideRun⟩ := List.forall_mem_cons.mp inside
  rw [many1, first_seq, List.cons_append, first_one_between, if_pos isIn,
    first_many_run shuns insideRun stays, List.append_assoc, List.singleton_append]

/-- A stretch that is read is remembered. -/
theorem first_capture_between {label : Label} {body : Pattern} {stretch : Text}
    (reads : body.first (fun stop => (next stop).map (·.close stop.offset))
        (between front (stretch ++ back)) =
      (next (between (front ++ stretch) back)).map (·.close (byteLength (front ++ stretch)))) :
    (capture label body).first next (between front (stretch ++ back)) =
      (next (between (front ++ stretch) back)).map
        (·.remember label ⟨between front (stretch ++ back), byteLength (front ++ stretch)⟩) := by
  rw [first_capture, reads, Option.map_map]
  rfl

end Known

section Shunning

variable {other : CharSet}

theorem shuns_many (disjoint : ∀ c, set c = true → other c = false) (shuns : Shuns set next) :
    Shuns set ((many other).first next) := by
  intro front c back isIn
  rw [first_many_stay]
  · exact shuns front c back isIn
  · rintro _ ⟨⟩
    exact disjoint c isIn

theorem shuns_spell (text : Text) (outside : set c = false) : Shuns set (spell next (c :: text)) := by
  intro front other back isIn
  refine spell_ne text ?_
  rintro rfl
  rw [outside] at isIn
  cases isIn

theorem Begins.shuns {body : Pattern} (begins : body.Begins c) (outside : set c = false) :
    Shuns set (body.first next) := by
  obtain ⟨later, text, spelled⟩ := begins next
  rw [spelled]
  exact shuns_spell text outside

theorem Shuns.opt {body : Pattern} (first : Shuns set (body.first next)) (shuns : Shuns set next) :
    Shuns set ((opt body).first next) := by
  intro front c back isIn
  rw [first_opt, first front c back isIn, shuns front c back isIn]
  rfl

theorem Shuns.map (shuns : Shuns set next) (change : Cursor → Completion → Completion) :
    Shuns set fun stop => (next stop).map (change stop) := by
  intro front c back isIn
  dsimp only
  rw [shuns front c back isIn]
  rfl

end Shunning

section Places

variable {pattern : Pattern} {text : Text} {hit : Hit}

/-- Where a way ends is further on in the text, and its stretches are stretches of the text from there on. -/
theorem Leads.places {allowed : Char → Prop} {cursor : Cursor} {way : Way}
    (leads : Leads allowed cursor way) : ∀ front back, cursor = between front back →
      (∃ passed rest, back = passed ++ rest ∧ way.stop = between (front ++ passed) rest ∧
        ∀ c ∈ passed, allowed c) ∧
      ∀ stretch ∈ way.stretches, ∃ passed inside rest, back = passed ++ (inside ++ rest) ∧
        stretch.2 = ⟨between (front ++ passed) (inside ++ rest),
          byteLength (front ++ passed ++ inside)⟩ := by
  induction leads with
  | stay cursor =>
    rintro front back rfl
    exact ⟨⟨[], back, rfl, by rw [List.append_nil], nofun⟩, nofun⟩
  | @through cursor c rest reads isAllowed =>
    rintro front back rfl
    obtain rfl : back = c :: rest := reads
    exact ⟨⟨[c], rest, rfl, Text.Cursor.step_between front rest c, by simpa using isAllowed⟩, nofun⟩
  | follow _ _ firstIh secondIh =>
    rintro front back rfl
    obtain ⟨⟨passed, rest, rfl, stops, inFirst⟩, starts⟩ := firstIh front back rfl
    obtain ⟨⟨more, later, rfl, stops', inSecond⟩, starts'⟩ := secondIh _ _ stops
    refine ⟨⟨passed ++ more, later, by rw [List.append_assoc], ?_,
      List.forall_mem_append.mpr ⟨inFirst, inSecond⟩⟩, fun stretch member => ?_⟩
    · rw [← List.append_assoc]
      exact stops'
    · rcases List.mem_append.mp member with member | member
      · exact starts stretch member
      · obtain ⟨more', inside, later', parts, isStretch⟩ := starts' stretch member
        exact ⟨passed ++ more', inside, later', by rw [parts, List.append_assoc],
          by rw [isStretch, ← List.append_assoc front]⟩
  | capture label _ ih =>
    rintro front back rfl
    obtain ⟨stops, starts⟩ := ih front back rfl
    refine ⟨stops, fun stretch member => ?_⟩
    rcases List.mem_cons.mp member with rfl | member
    · obtain ⟨passed, rest, rfl, isStop, -⟩ := stops
      exact ⟨[], passed, rest, rfl, by rw [isStop, List.append_nil]; rfl⟩
    · exact starts stretch member

theorem mem_of_rememberAll {stretches : List (Label × Span)} {completion : Completion} {span : Span}
    (found : (Completion.rememberAll stretches completion).captures.subject = some span) :
    completion.captures.subject = some span ∨ (Label.subject, span) ∈ stretches := by
  induction stretches with
  | nil => exact .inl found
  | cons stretch stretches ih =>
    have later := fun earlier => (ih earlier).imp_right (List.mem_cons_of_mem stretch)
    obtain ⟨label, remembered⟩ := stretch
    change (Completion.remember _ label remembered).captures.subject = some span at found
    unfold Completion.remember at found
    dsimp only at found
    split at found
    · exact later found
    · cases label with
      | subject =>
        cases found
        exact .inr List.mem_cons_self
      | base => exact later found
      | result => exact later found

/-- The captured name of a match is a stretch of the text from the start of the match on. -/
theorem stretch_of_hitAt (found : pattern.hitAt (between front back) = some hit) :
    hit.whole.start = between front back ∧
      ∀ span, hit.captures.subject = some span → ∃ passed name rest, back = passed ++ (name ++ rest) ∧
        span = ⟨between (front ++ passed) (name ++ rest), byteLength (front ++ passed ++ name)⟩ := by
  rw [hitAt_eq] at found
  obtain ⟨way, isFirst, rfl⟩ := Option.map_eq_some_iff.mp found
  refine ⟨rfl, fun span captured => ?_⟩
  rcases mem_of_rememberAll captured with none | member
  · cases none
  · have leads := leads_of_mem_ways pattern.spells_any (List.mem_of_head? isFirst)
    exact (leads.places front back rfl).2 _ member

theorem exists_of_mem_candidates (member : hit ∈ pattern.candidates text) :
    ∃ front back, text = front ++ back ∧ pattern.hitAt (between front back) = some hit := by
  rw [candidates_eq, Text.Cursor.start_eq] at member
  obtain ⟨place, isPlace, found⟩ := List.mem_filterMap.mp member
  obtain ⟨front, back, parts, rfl⟩ := Text.Cursor.mem_placesFrom.mp isPlace
  exact ⟨front, back, parts, found⟩

theorem exists_of_mem_hits (member : hit ∈ pattern.hits text) :
    ∃ front back, text = front ++ back ∧ pattern.hitAt (between front back) = some hit := by
  rcases mem_of_mem_keepDisjoint (List.mem_reverse.mp member) with none | candidate
  · cases none
  · exact exists_of_mem_candidates candidate

theorem mem_candidates (found : pattern.hitAt (between front back) = some hit) :
    hit ∈ pattern.candidates (front ++ back) := by
  rw [candidates_eq, Text.Cursor.start_eq]
  exact List.mem_filterMap.mpr ⟨_, Text.Cursor.mem_placesFrom.mpr ⟨front, back, rfl, rfl⟩, found⟩

theorem keepDisjoint_eq_self {candidates : List Hit} {state : Nat × List Hit}
    (overlap : ∀ other ∈ candidates, other.whole.offset < state.1) :
    candidates.foldl keepDisjoint state = state := by
  induction candidates with
  | nil => rfl
  | cons other candidates ih =>
    obtain ⟨here, later⟩ := List.forall_mem_cons.mp overlap
    rw [List.foldl_cons, keepDisjoint, if_neg (Nat.not_le.mpr here), ih later]

/-- Of matches that all overlap one is kept. -/
theorem exists_hits_eq_singleton (member : hit ∈ pattern.candidates text)
    (overlap : ∀ first ∈ pattern.candidates text, ∀ other ∈ pattern.candidates text,
      other.whole.offset < first.whole.stop) :
    ∃ first ∈ pattern.candidates text, pattern.hits text = [first] := by
  rw [hits]
  cases isCandidates : pattern.candidates text with
  | nil =>
    rw [isCandidates] at member
    cases member
  | cons first others =>
    rw [isCandidates] at overlap
    have kept : keepDisjoint (0, []) first = (first.whole.stop, [first]) := if_pos (Nat.zero_le _)
    refine ⟨first, List.mem_cons_self, ?_⟩
    rw [List.foldl_cons, kept, keepDisjoint_eq_self, List.reverse_singleton]
    exact fun other isOther => overlap first List.mem_cons_self other (List.mem_cons_of_mem _ isOther)

theorem keepDisjoint_append (candidates : List Hit) (state : Nat × List Hit) (base : List Hit) :
    (candidates.foldl keepDisjoint (state.1, state.2 ++ base)).2 =
      (candidates.foldl keepDisjoint state).2 ++ base := by
  induction candidates generalizing state with
  | nil => rfl
  | cons hit candidates ih =>
    rw [List.foldl_cons, List.foldl_cons, ← ih]
    unfold keepDisjoint
    split <;> rfl

theorem stop_keepDisjoint_le {candidates : List Hit} {state : Nat × List Hit} {stop : Nat}
    (first : state.1 ≤ stop) (others : ∀ hit ∈ candidates, hit.whole.stop ≤ stop) :
    (candidates.foldl keepDisjoint state).1 ≤ stop := by
  induction candidates generalizing state with
  | nil => exact first
  | cons hit candidates ih =>
    obtain ⟨here, later⟩ := List.forall_mem_cons.mp others
    refine ih ?_ later
    unfold keepDisjoint
    split
    · exact here
    · exact first

/-- A match is kept if none that begins before it reaches into it. -/
theorem exists_hits_of_hitAt (found : pattern.hitAt (between front back) = some hit)
    (apart : ∀ before after other, front = before ++ after → after ≠ [] →
      pattern.hitAt (between before (after ++ back)) = some other → other.whole.stop ≤ byteLength front) :
    ∃ earlier later, pattern.hits (front ++ back) = earlier ++ hit :: later ∧
      ∀ other ∈ earlier, ∃ before after, front = before ++ after ∧ after ≠ [] ∧
        pattern.hitAt (between before (after ++ back)) = some other := by
  obtain ⟨places, parts, begins⟩ := Text.Cursor.exists_placesFrom_append [] front back
  have starts : ∀ other ∈ places.filterMap pattern.hitAt, ∃ before after, front = before ++ after ∧
      after ≠ [] ∧ pattern.hitAt (between before (after ++ back)) = some other := by
    intro other member
    obtain ⟨place, isPlace, isHit⟩ := List.mem_filterMap.mp member
    obtain ⟨before, after, whole, filled, rfl⟩ := begins place isPlace
    exact ⟨before, after, whole, filled, isHit⟩
  obtain ⟨later, isFirst⟩ :
      ∃ later, ((between front back).placesFrom back).filterMap pattern.hitAt = hit :: later := by
    cases back <;> exact ⟨_, List.filterMap_cons_some found⟩
  have all : pattern.candidates (front ++ back) = places.filterMap pattern.hitAt ++ hit :: later := by
    rw [candidates_eq, Text.Cursor.start_eq, parts, List.filterMap_append, List.nil_append, isFirst]
  generalize isState : (places.filterMap pattern.hitAt).foldl keepDisjoint (0, []) = state
  have before : state.1 ≤ byteLength front := by
    rw [← isState]
    refine stop_keepDisjoint_le (Nat.zero_le _) fun other member => ?_
    obtain ⟨before, after, whole, filled, isHit⟩ := starts other member
    exact apart before after other whole filled isHit
  have begun : hit.whole.offset = byteLength front := by
    rw [Text.Span.offset, (stretch_of_hitAt found).1]
    rfl
  have kept : keepDisjoint state hit = (hit.whole.stop, [] ++ (hit :: state.2)) :=
    if_pos (begun ▸ before)
  refine ⟨state.2.reverse, ((later.foldl keepDisjoint (hit.whole.stop, [])).2).reverse, ?_,
    fun other member => ?_⟩
  · rw [hits, all, List.foldl_append, isState, List.foldl_cons, kept,
      keepDisjoint_append later (hit.whole.stop, []), List.reverse_append, List.reverse_cons,
      List.append_assoc, List.singleton_append]
  · rw [List.mem_reverse, ← isState] at member
    rcases mem_of_mem_keepDisjoint member with none | candidate
    · cases none
    · exact starts other candidate

/-- Whether a pattern matches at the start of a line only. -/
def anchored : Pattern → Bool
  | lineStart => true
  | seq first _ => first.anchored
  | alt first second => first.anchored && second.anchored
  | capture _ body => body.anchored
  | _ => false

theorem atLineStart_of_mem_ways {cursor : Cursor} {way : Way} (anchored : pattern.anchored = true)
    (member : way ∈ pattern.ways cursor) : cursor.atLineStart = true := by
  induction pattern generalizing way with
  | lineStart =>
    rw [ways] at member
    split at member
    case isTrue start => exact start
    case isFalse => cases member
  | seq first second firstIh _ =>
    obtain ⟨front, isFront, -⟩ := List.mem_flatMap.mp member
    exact firstIh anchored isFront
  | alt first second firstIh secondIh =>
    obtain ⟨anchoredFirst, anchoredSecond⟩ := Bool.and_eq_true_iff.mp anchored
    rcases List.mem_append.mp member with member | member
    · exact firstIh anchoredFirst member
    · exact secondIh anchoredSecond member
  | capture label body ih =>
    obtain ⟨inner, isInner, -⟩ := List.mem_map.mp member
    exact ih anchored isInner
  | empty | one | many | few | star | wordBoundary => cases anchored

theorem lineStart_of_hitAt (anchored : pattern.anchored = true)
    (found : pattern.hitAt (between front back) = some hit) :
    front = [] ∨ ∃ lines, front = lines ++ ['\n'] := by
  rw [hitAt_eq] at found
  obtain ⟨way, isFirst, -⟩ := Option.map_eq_some_iff.mp found
  exact (Text.Cursor.atLineStart_between front back).mp
    (atLineStart_of_mem_ways anchored (List.mem_of_head? isFirst))

end Places

section Parts

variable {hit : Hit} {way : Way} {cursor : Cursor} {pattern other : Pattern} {allowed : Char → Prop}

theorem mem_ways_seq : way ∈ (seq pattern other).ways cursor ↔
    ∃ first ∈ pattern.ways cursor, ∃ second ∈ other.ways first.stop, way = first.followedBy second := by
  simp only [ways, List.mem_flatMap, List.mem_map, eq_comm]

theorem eq_of_mem_lineStart (member : way ∈ lineStart.ways cursor) :
    way = ⟨cursor, []⟩ := by
  rw [ways] at member
  split at member
  · exact List.mem_singleton.mp member
  · cases member

theorem exists_of_mem_one (member : way ∈ (one set).ways (between front back)) :
    ∃ c rest, back = c :: rest ∧ set c = true ∧ way = ⟨between (front ++ [c]) rest, []⟩ := by
  rw [ways, Text.Cursor.rest_between] at member
  cases back with
  | nil => cases member
  | cons c rest =>
    dsimp only at member
    split at member
    case isTrue isIn =>
      rw [List.mem_singleton, Text.Cursor.step_between] at member
      exact ⟨c, rest, rfl, isIn, member⟩
    case isFalse => cases member

theorem exists_of_mem_many (member : way ∈ (many set).ways (between front back)) :
    ∃ run rest, back = run ++ rest ∧ (∀ c ∈ run, set c = true) ∧
      way = ⟨between (front ++ run) rest, []⟩ := by
  obtain ⟨stop, inRuns, rfl⟩ := List.mem_map.mp member
  have leads : Leads (set · = true) (between front back) ⟨stop, []⟩ :=
    leads_of_mem_runs (fun _ isIn => isIn) rfl (List.mem_reverse.mp inRuns)
  obtain ⟨⟨run, rest, parts, rfl, inside⟩, -⟩ := leads.places front back rfl
  exact ⟨run, rest, parts, inside, rfl⟩

theorem exists_of_mem_many1 (member : way ∈ (many1 set).ways (between front back)) :
    ∃ run rest, back = run ++ rest ∧ run ≠ [] ∧ (∀ c ∈ run, set c = true) ∧
      way = ⟨between (front ++ run) rest, []⟩ := by
  obtain ⟨first, isFirst, second, isSecond, rfl⟩ := mem_ways_seq.mp member
  obtain ⟨c, rest, rfl, isIn, rfl⟩ := exists_of_mem_one isFirst
  obtain ⟨run, rest, rfl, inside, rfl⟩ := exists_of_mem_many isSecond
  exact ⟨c :: run, rest, rfl, List.cons_ne_nil c run, List.forall_mem_cons.mpr ⟨isIn, inside⟩,
    by simp [Way.followedBy]⟩

theorem exists_of_mem_literal {text : Text} (member : way ∈ (literal text).ways (between front back)) :
    ∃ rest, back = text ++ rest ∧ way = ⟨between (front ++ text) rest, []⟩ := by
  have further (text : Text) : ∀ (read : Text) (before : Pattern),
      (∀ way ∈ before.ways (between front back), ∃ rest, back = read ++ rest ∧
        way = ⟨between (front ++ read) rest, []⟩) →
      ∀ way ∈ (text.foldl (fun before c => .seq before (.one (· == c))) before).ways (between front back),
        ∃ rest, back = read ++ text ++ rest ∧ way = ⟨between (front ++ (read ++ text)) rest, []⟩ := by
    induction text with
    | nil =>
      intro read before known way member
      simpa using known way member
    | cons c text ih =>
      intro read before known way member
      have step := ih (read ++ [c]) (.seq before (.one (· == c))) (fun way member => ?_) way member
      · simpa using step
      · obtain ⟨first, isFirst, second, isSecond, rfl⟩ := mem_ways_seq.mp member
        obtain ⟨rest, rfl, rfl⟩ := known first isFirst
        obtain ⟨other, rest, rfl, same, rfl⟩ := exists_of_mem_one isSecond
        obtain rfl := beq_iff_eq.mp same
        exact ⟨rest, by simp, by simp [Way.followedBy]⟩
  cases text with
  | nil =>
    cases List.mem_singleton.mp member
    exact ⟨back, rfl, by rw [List.append_nil]⟩
  | cons c text =>
    refine further text [c] _ (fun way member => ?_) way member
    obtain ⟨other, rest, rfl, same, rfl⟩ := exists_of_mem_one member
    obtain rfl := beq_iff_eq.mp same
    exact ⟨rest, rfl, rfl⟩

theorem mem_ways_opt : way ∈ (opt pattern).ways cursor ↔ way ∈ pattern.ways cursor ∨ way = ⟨cursor, []⟩ := by
  rw [opt, ways, List.mem_append, ways, List.mem_singleton]

theorem mem_ways_capture {label : Label} : way ∈ (capture label pattern).ways cursor ↔
    ∃ inner ∈ pattern.ways cursor,
      way = ⟨inner.stop, (label, ⟨cursor, inner.stop.offset⟩) :: inner.stretches⟩ := by
  rw [ways, List.mem_map]
  simp only [eq_comm]

/-- The parts of a pattern that capture a name. -/
def namedParts : Pattern → List Pattern
  | capture label body => if label = .subject then body :: body.namedParts else body.namedParts
  | seq first second | alt first second => first.namedParts ++ second.namedParts
  | star body => body.namedParts
  | empty | one _ | many _ | few _ | lineStart | wordBoundary => []

/-- The names among the stretches of a way are made of the characters that the parts for them read. -/
theorem allowed_of_mem_stretches (spells : ∀ part ∈ pattern.namedParts, part.Spells allowed)
    (member : way ∈ pattern.ways (between front back)) {span : Span}
    (captured : (Label.subject, span) ∈ way.stretches) : ∀ c ∈ span.text, allowed c := by
  induction pattern generalizing front back way with
  | empty =>
    cases List.mem_singleton.mp member
    cases captured
  | one set =>
    obtain ⟨c, rest, rfl, -, rfl⟩ := exists_of_mem_one member
    cases captured
  | many set =>
    obtain ⟨run, rest, rfl, -, rfl⟩ := exists_of_mem_many member
    cases captured
  | few set =>
    obtain ⟨stop, -, rfl⟩ := List.mem_map.mp member
    cases captured
  | seq first second firstIh secondIh =>
    obtain ⟨one, isOne, two, isTwo, rfl⟩ := mem_ways_seq.mp member
    obtain ⟨⟨passed, rest, rfl, stops, -⟩, -⟩ :=
      (leads_of_mem_ways first.spells_any isOne).places front back rfl
    rw [stops] at isTwo
    rcases List.mem_append.mp captured with inFirst | inSecond
    · exact firstIh (List.forall_mem_append.mp spells).1 isOne inFirst
    · exact secondIh (List.forall_mem_append.mp spells).2 isTwo inSecond
  | alt first second firstIh secondIh =>
    rcases List.mem_append.mp member with isFirst | isSecond
    · exact firstIh (List.forall_mem_append.mp spells).1 isFirst captured
    · exact secondIh (List.forall_mem_append.mp spells).2 isSecond captured
  | star body ih =>
    -- The copies follow each other from place to place, so this is shown of every cursor they pass.
    have copied : ∀ front' back', between front back = between front' back' →
        (Label.subject, span) ∈ way.stretches → ∀ c ∈ span.text, allowed c := by
      refine copies_induction (motive := fun cursor way => ∀ front back, cursor = between front back →
        (Label.subject, span) ∈ way.stretches → ∀ c ∈ span.text, allowed c) ?_ ?_ member
      · intro cursor front back isPlace none
        cases none
      · rintro cursor one isOne two later front back rfl inside
        obtain ⟨⟨passed, rest, rfl, stops, -⟩, -⟩ :=
          (leads_of_mem_ways body.spells_any isOne).places front back rfl
        rcases List.mem_append.mp inside with inFirst | inSecond
        · exact ih spells isOne inFirst
        · exact later _ _ stops inSecond
    exact copied front back rfl captured
  | capture label body ih =>
    obtain ⟨inner, isInner, rfl⟩ := List.mem_map.mp member
    rcases List.mem_cons.mp captured with same | inside
    · cases same
      have made : body.Spells allowed := spells body List.mem_cons_self
      obtain ⟨⟨passed, rest, rfl, stops, made⟩, -⟩ :=
        (leads_of_mem_ways made isInner).places front back rfl
      rw [stops]
      intro c inside
      exact made c (Text.Span.text_between front passed rest ▸ inside)
    · refine ih (fun part among => spells part ?_) isInner inside
      rw [namedParts]
      split
      · exact List.mem_cons_of_mem _ among
      · exact among
  | lineStart | wordBoundary =>
    rw [ways] at member
    split at member
    · cases List.mem_singleton.mp member
      cases captured
    · cases member

theorem allowed_of_hitAt (spells : ∀ part ∈ pattern.namedParts, part.Spells allowed)
    (found : pattern.hitAt (between front back) = some hit) {span : Span}
    (captured : hit.captures.subject = some span) : ∀ c ∈ span.text, allowed c := by
  rw [hitAt_eq] at found
  obtain ⟨way, isFirst, rfl⟩ := Option.map_eq_some_iff.mp found
  rcases mem_of_rememberAll captured with none | member
  · cases none
  · exact allowed_of_mem_stretches spells (List.mem_of_head? isFirst) member

end Parts

end Pattern

end DepAtlas
