import Mathlib.Data.List.Infix
import DepAtlas.Proofs.Text.Basic
import DepAtlas.StructureIndex

/-!
The search for several names at once, against the places where one of them stands as a whole word. Matches
do not overlap, so a match of one name can hide another one; it does so exactly if the other name begins
at a word of the first one that is not its own beginning, or if the first one goes on after it.
-/

namespace DepAtlas.StructureIndex

/-- A name stands somewhere in a text as a whole word. -/
def Mentions (text name : Text) : Prop :=
  ∃ front back, text = front ++ name ++ back ∧ front.getLast?.any Text.isIdentifier = false ∧
    back.head?.any Text.isIdentifier = false

/-- A match of the first name can take in the place where the second one stands as a whole word: it holds
the second name as one of its words, or ends inside it after a beginning of its own. -/
inductive Hides (other name : Text) : Prop
  | holds (differs : other ≠ name) (mentions : Mentions other name)
  | overlaps (front middle back : Text) (ends : other = front ++ middle) (begins : name = middle ++ back)
      (frontFilled : front ≠ []) (middleFilled : middle ≠ []) (backFilled : back ≠ [])
      (edge : front.getLast?.any Text.isIdentifier = false)

variable {names : List Text} {text name best other : Text}

/-- A name without edges inside it hides no other one. -/
theorem not_hides_of_identifier (identifier : ∀ c ∈ other, Text.isIdentifier c = true) :
    ¬ Hides other name := by
  have edgeless {front back : Text} (parts : other = front ++ back)
      (edge : front.getLast?.any Text.isIdentifier = false) : front = [] := by
    cases last : front.getLast? with
    | none => exact List.getLast?_eq_none_iff.mp last
    | some c =>
      have inside : c ∈ other := parts ▸ List.mem_append_left _ (List.mem_of_getLast? last)
      rw [last, Option.any_some, identifier c inside] at edge
      cases edge
  intro hides
  cases hides with
  | holds differs mentions =>
    obtain ⟨front, back, parts, before, after⟩ := mentions
    rw [List.append_assoc] at parts
    obtain rfl := edgeless parts before
    cases back with
    | nil => exact differs (by rw [parts, List.nil_append, List.append_nil])
    | cons c rest =>
      have inside : c ∈ other := by simp [parts]
      rw [List.head?_cons, Option.any_some, identifier c inside] at after
      cases after
  | overlaps front middle back ends begins frontFilled middleFilled backFilled edge =>
    exact frontFilled (edgeless ends edge)

/-- Is the longest of the names that a text starts with, or nothing if it starts with none. -/
def IsLongest (names : List Text) (text : Text) : Option Text → Prop
  | some best => best ∈ names ∧ best <+: text ∧
      ∀ name ∈ names, name <+: text → name.length ≤ best.length
  | none => ∀ name ∈ names, ¬ name <+: text

theorem isLongest_longestName? (names : List Text) (text : Text) :
    IsLongest names text (longestName? names text) := by
  induction names using List.reverseRecOn with
  | nil => exact nofun
  | append_singleton seen name ih =>
    have step : longestName? (seen ++ [name]) text =
        if name.isPrefixOf text && (longestName? seen text).all (·.length < name.length) then some name
        else longestName? seen text := by
      rw [longestName?, List.foldl_append]
      rfl
    rw [step]
    generalize longestName? seen text = found at ih
    -- A later name takes the place of the best one only if it is longer.
    split
    · rename_i better
      simp only [Bool.and_eq_true, List.isPrefixOf_iff_prefix] at better
      obtain ⟨starts, longer⟩ := better
      refine ⟨List.mem_append_right _ List.mem_cons_self, starts, ?_⟩
      intro other member starts'
      rcases List.mem_append.mp member with old | last
      · cases found with
        | none => exact absurd starts' (ih other old)
        | some best =>
          have bound := ih.2.2 other old starts'
          have less : best.length < name.length := by simpa using longer
          omega
      · rw [List.mem_singleton.mp last]
    · rename_i worse
      simp only [Bool.and_eq_true, List.isPrefixOf_iff_prefix, not_and] at worse
      cases found with
      | none =>
        intro other member starts
        rcases List.mem_append.mp member with old | last
        · exact ih other old starts
        · rw [List.mem_singleton.mp last] at starts
          exact worse starts rfl
      | some best =>
        refine ⟨List.mem_append_left _ ih.1, ih.2.1, ?_⟩
        intro other member starts
        rcases List.mem_append.mp member with old | last
        · exact ih.2.2 other old starts
        · rw [List.mem_singleton.mp last] at starts ⊢
          have less := worse starts
          simpa using less

/-- If the text starts with one of the names, the longest one is found, which is not shorter. -/
theorem exists_longest (known : other ∈ names) (starts : other <+: text) :
    ∃ best, longestName? names text = some best ∧ best ∈ names ∧ best <+: text ∧
      other.length ≤ best.length := by
  have longest := isLongest_longestName? names text
  cases found : longestName? names text with
  | none =>
    rw [found] at longest
    exact absurd starts (longest other known)
  | some best =>
    rw [found] at longest
    obtain ⟨listed, prefixed, most⟩ := longest
    exact ⟨best, rfl, listed, prefixed, most other known starts⟩

theorem getLast?_or_step (cursor : Text.Cursor) (c : Char) (front rest : Text) :
    front.getLast?.or (cursor.step c rest).before = (c :: front).getLast?.or cursor.before := by
  rw [List.getLast?_cons]
  cases front.getLast? <;> rfl

section Search

variable (filled : [] ∉ names)
include filled

theorem mentions_nil (resume : Option Nat) (cursor : Text.Cursor) :
    mentions names resume cursor [] = [] := by
  have longest := isLongest_longestName? names []
  rw [mentions]
  cases found : longestName? names [] with
  | none => rfl
  | some best =>
    rw [found] at longest
    rw [List.prefix_nil.mp longest.2.1] at longest
    exact absurd longest.1 filled

theorem mentions_cons (resume : Option Nat) (cursor : Text.Cursor) (c : Char) (rest : Text) :
    mentions names resume cursor (c :: rest) =
      if resume.any (cursor.offset < ·) then mentions names resume (cursor.step c rest) rest
      else
        match longestName? names (c :: rest) with
        | none => mentions names resume (cursor.step c rest) rest
        | some name =>
          (name, cursor.before, ((c :: rest).drop name.length).head?) ::
            mentions names (some (cursor.offset + Text.byteLength name)) (cursor.step c rest) rest := by
  have longest := isLongest_longestName? names (c :: rest)
  rw [mentions]
  split
  · rfl
  · cases found : longestName? names (c :: rest) with
    | none => rfl
    | some best =>
      rw [found] at longest
      cases best with
      | nil => exact absurd longest.1 filled
      | cons first more => rfl

/-- What is found stands in the text, between the neighbours that are told, and not before the place where
the search goes on. -/
theorem of_mem_mentions {resume : Option Nat} {cursor : Text.Cursor} {before after : Option Char}
    (member : (name, before, after) ∈ mentions names resume cursor text) :
    ∃ front back, text = front ++ name ++ back ∧ before = front.getLast?.or cursor.before ∧
      after = back.head? ∧ ∀ stop ∈ resume, stop ≤ cursor.offset + Text.byteLength front := by
  induction text generalizing resume cursor with
  | nil =>
    rw [mentions_nil filled] at member
    cases member
  | cons c rest ih =>
    have later {resume' : Option Nat}
        (found : (name, before, after) ∈ mentions names resume' (cursor.step c rest) rest)
        (free : ∀ stop ∈ resume, stop ≤ cursor.offset ∨ stop ∈ resume') :
        ∃ front back, c :: rest = front ++ name ++ back ∧ before = front.getLast?.or cursor.before ∧
          after = back.head? ∧ ∀ stop ∈ resume, stop ≤ cursor.offset + Text.byteLength front := by
      obtain ⟨front, back, rfl, left, right, beyond⟩ := ih found
      refine ⟨c :: front, back, rfl, left.trans (getLast?_or_step cursor c front _), right, ?_⟩
      intro stop isStop
      rw [Text.byteLength]
      rcases free stop isStop with low | same
      · omega
      · have bound := beyond stop same
        change stop ≤ cursor.offset + c.utf8Size + Text.byteLength front at bound
        omega
    rw [mentions_cons filled] at member
    split at member
    · exact later member fun stop isStop => .inr isStop
    · rename_i reached
      have free (stop : Nat) (isStop : stop ∈ resume) : stop ≤ cursor.offset := by
        rw [Option.mem_def] at isStop
        simpa [isStop] using reached
      have longest := isLongest_longestName? names (c :: rest)
      cases found : longestName? names (c :: rest) with
      | none =>
        rw [found] at member
        exact later member fun stop isStop => .inr isStop
      | some best =>
        rw [found] at member longest
        rcases List.mem_cons.mp member with here | member
        · cases here
          obtain ⟨back, parts⟩ := longest.2.1
          refine ⟨[], back, parts.symm, rfl, ?_, ?_⟩
          · rw [← parts, List.drop_left]
          · intro stop isStop
            exact Nat.le_add_right_of_le (free stop isStop)
        · exact later member fun stop isStop => .inl (free stop isStop)

/-- Nothing that begins after the start of a match and is too long for the rest of the text is found. -/
theorem not_mem_wholeWords (longest : longestName? names text = some best) (differs : best ≠ name)
    (short : Text.byteLength text < Text.byteLength best + Text.byteLength name) :
    name ∉ wholeWords names text := by
  intro member
  obtain ⟨⟨_, before, after⟩, found, rfl⟩ := List.mem_map.mp member
  have inside := (List.mem_filter.mp found).1
  cases text with
  | nil =>
    rw [mentions_nil filled] at inside
    cases inside
  | cons c rest =>
    rw [mentions_cons filled, longest] at inside
    rcases List.mem_cons.mp inside with first | later
    · cases first
      exact differs rfl
    · obtain ⟨front, back, rfl, -, -, free⟩ := of_mem_mentions filled later
      have beyond := free _ rfl
      simp only [Text.Cursor.start, Text.Cursor.step] at beyond
      simp only [Text.byteLength, Text.byteLength_append] at short
      omega

end Search

theorem mentions_of_mem_wholeWords (filled : [] ∉ names) (member : name ∈ wholeWords names text) :
    Mentions text name := by
  obtain ⟨⟨_, before, after⟩, found, rfl⟩ := List.mem_map.mp member
  obtain ⟨inside, edges⟩ := List.mem_filter.mp found
  obtain ⟨front, back, parts, left, right, -⟩ := of_mem_mentions filled inside
  rw [left, right] at edges
  simp only [Text.Cursor.start, Option.or_none, Bool.and_eq_true, Bool.not_eq_true'] at edges
  exact ⟨front, back, parts, edges.1, edges.2⟩

theorem head?_any_of_prefix {test : Char → Bool} {short long : Text} (starts : short <+: long)
    (edge : long.head?.any test = false) : short.head?.any test = false := by
  cases short with
  | nil => rfl
  | cons c rest =>
    obtain ⟨more, rfl⟩ := starts
    exact edge

/-- A match that goes on into the place of a whole word, or begins with it and goes on after it, hides it. -/
theorem hides_of_covers (front back : Text) (starts : best <+: front ++ name ++ back)
    (covers : front.length < best.length) (longer : front = [] → name.length < best.length)
    (edge : front.getLast?.any Text.isIdentifier = false)
    (after : back.head?.any Text.isIdentifier = false) : Hides best name := by
  rw [List.append_assoc] at starts
  obtain ⟨middle, rfl⟩ : front <+: best :=
    List.prefix_of_prefix_length_le (List.prefix_append _ _) starts (Nat.le_of_lt covers)
  rw [List.length_append] at covers longer
  have middleFilled : middle ≠ [] := by
    rintro rfl
    rw [List.length_nil] at covers
    omega
  have within : middle <+: name ++ back := (List.prefix_append_right_inj front).mp starts
  by_cases whole : name.length ≤ middle.length
  · obtain ⟨rest, rfl⟩ : name <+: middle :=
      List.prefix_of_prefix_length_le (List.prefix_append _ _) within whole
    have follows : rest <+: back := (List.prefix_append_right_inj name).mp within
    refine .holds ?_ ⟨front, rest, ?_, edge, head?_any_of_prefix follows after⟩
    · intro same
      have length := congrArg List.length same
      simp only [List.length_append] at length longer
      have empty : front = [] := List.length_eq_zero_iff.mp (by omega)
      have less := longer empty
      omega
    · rw [List.append_assoc]
  · obtain ⟨rest, rfl⟩ : middle <+: name :=
      List.prefix_of_prefix_length_le within (List.prefix_append _ _) (Nat.le_of_not_le whole)
    refine .overlaps front middle rest rfl rfl ?_ middleFilled ?_ edge
    · rintro rfl
      have less := longer rfl
      rw [List.length_nil] at less
      omega
    · rintro rfl
      rw [List.append_nil] at whole
      exact whole (Nat.le_refl _)

section Clear

variable (listed : name ∈ names) (clear : ∀ other ∈ names, ¬ Hides other name)
include listed clear

/-- At the place of a whole word that no name hides, the word itself is found. -/
theorem longestName?_of_clear (back : Text) (after : back.head?.any Text.isIdentifier = false) :
    longestName? names (name ++ back) = some name := by
  have starts : name <+: name ++ back := List.prefix_append _ _
  obtain ⟨best, found, known, prefixed, bound⟩ := exists_longest listed starts
  have same : name <+: best := List.prefix_of_prefix_length_le starts prefixed bound
  rw [found]
  by_contra differs
  have longer : name.length < best.length :=
    Nat.lt_of_le_of_ne bound fun length => differs (congrArg some (same.eq_of_length length).symm)
  exact clear best known
    (hides_of_covers [] back prefixed (Nat.zero_lt_of_lt longer) (fun _ => longer) rfl after)

omit listed in
/-- A name found before the place of a whole word that no name hides ends before it. -/
theorem prefix_front_of_clear {front back : Text} (known : best ∈ names)
    (starts : best <+: front ++ name ++ back) (later : front ≠ [])
    (edge : front.getLast?.any Text.isIdentifier = false)
    (after : back.head?.any Text.isIdentifier = false) : best <+: front := by
  have ends : best.length ≤ front.length := by
    by_contra covers
    exact clear best known (hides_of_covers front back starts (Nat.lt_of_not_le covers)
      (fun empty => absurd empty later) edge after)
  exact List.prefix_of_prefix_length_le starts ⟨name ++ back, by simp⟩ ends

/-- A whole word that begins where the search goes on, or later, is found if no name hides it: what is
found before it ends before it, and what is found at its place is the word itself. -/
theorem mem_mentions (filled : [] ∉ names) (front back : Text) (resume : Option Nat)
    (cursor : Text.Cursor)
    (edge : (front.getLast?.or cursor.before).any Text.isIdentifier = false)
    (after : back.head?.any Text.isIdentifier = false)
    (free : ∀ stop ∈ resume, stop ≤ cursor.offset + Text.byteLength front) :
    ∃ before, before.any Text.isIdentifier = false ∧
      (name, before, back.head?) ∈ mentions names resume cursor (front ++ name ++ back) := by
  induction front generalizing resume cursor with
  | nil =>
    have nameFilled : name ≠ [] := fun empty => filled (empty ▸ listed)
    obtain ⟨c, rest, parts⟩ := List.exists_cons_of_ne_nil nameFilled
    have reached : ¬ resume.any (cursor.offset < ·) = true := by
      cases resume with
      | none => simp
      | some stop =>
        have bound := free stop rfl
        rw [Text.byteLength] at bound
        simpa using bound
    refine ⟨cursor.before, edge, ?_⟩
    rw [List.nil_append]
    have begins : name ++ back = c :: (rest ++ back) := by rw [parts, List.cons_append]
    rw [begins, mentions_cons filled, if_neg reached, ← begins,
      longestName?_of_clear listed clear back after]
    dsimp only
    rw [List.drop_left]
    exact List.mem_cons_self
  | cons c front ih =>
    have later (resume' : Option Nat)
        (free' : ∀ stop ∈ resume', stop ≤ cursor.offset + Text.byteLength (c :: front)) :=
      ih resume' (cursor.step c (front ++ name ++ back))
        (getLast?_or_step cursor c front _ ▸ edge) fun stop isStop => by
          have bound := free' stop isStop
          rw [Text.byteLength] at bound
          change stop ≤ cursor.offset + c.utf8Size + Text.byteLength front
          omega
    rw [List.cons_append, List.cons_append, mentions_cons filled]
    split
    · exact later resume free
    · have longest := isLongest_longestName? names (c :: (front ++ name ++ back))
      cases found : longestName? names (c :: (front ++ name ++ back)) with
      | none => exact later resume free
      | some best =>
        rw [found] at longest
        obtain ⟨known, prefixed, -⟩ := longest
        have bare : (c :: front).getLast?.any Text.isIdentifier = false := by
          rw [List.getLast?_cons] at edge ⊢
          exact edge
        -- What is found before the word ends before it, so that the search resumes in time.
        have within : best <+: c :: front :=
          prefix_front_of_clear clear known prefixed (List.cons_ne_nil c front) bare after
        obtain ⟨before, isEdge, inside⟩ := later (some (cursor.offset + Text.byteLength best))
          fun stop isStop => by
            cases isStop
            exact Nat.add_le_add_left (Text.byteLength_le_of_prefix within) _
        exact ⟨before, isEdge, List.mem_cons_of_mem _ inside⟩

end Clear

theorem mem_wholeWords_iff (filled : [] ∉ names) (listed : name ∈ names)
    (clear : ∀ other ∈ names, ¬ Hides other name) (text : Text) :
    name ∈ wholeWords names text ↔ Mentions text name := by
  constructor
  · exact mentions_of_mem_wholeWords filled
  · rintro ⟨front, back, rfl, edge, after⟩
    obtain ⟨before, bare, found⟩ := mem_mentions listed clear filled front back
      none (.start (front ++ name ++ back))
      (by rwa [Text.Cursor.start, Option.or_none]) after nofun
    refine List.mem_map.mpr ⟨_, List.mem_filter.mpr ⟨found, ?_⟩, rfl⟩
    rw [bare, after]
    rfl

/-- A name that hides another one does so in some text, unless the other one hides itself. -/
theorem exists_hidden (filled : [] ∉ names) (listed : name ∈ names) (single : ¬ Hides name name)
    (known : other ∈ names) (hides : Hides other name) :
    ∃ text, Mentions text name ∧ name ∉ wholeWords names text := by
  have positive : 0 < Text.byteLength name := Text.byteLength_pos fun empty => filled (empty ▸ listed)
  cases hides with
  | holds differs mentions =>
    refine ⟨other, mentions, ?_⟩
    obtain ⟨best, found, -, prefixed, bound⟩ := exists_longest known (List.prefix_refl other)
    obtain rfl : best = other := prefixed.eq_of_length_le bound
    exact not_mem_wholeWords filled found differs (Nat.lt_add_of_pos_right positive)
  | overlaps front middle back ends begins frontFilled middleFilled backFilled edge =>
    refine ⟨front ++ name, ⟨front, [], (List.append_nil _).symm, edge, rfl⟩, ?_⟩
    have starts : other <+: front ++ name := ⟨back, by rw [ends, begins, List.append_assoc]⟩
    obtain ⟨best, found, -, prefixed, bound⟩ := exists_longest known starts
    have covers : front.length < best.length := by
      have positive := List.length_pos_iff.mpr middleFilled
      rw [ends, List.length_append] at bound
      omega
    have differs : best ≠ name := by
      rintro rfl
      refine single (hides_of_covers front [] ?_ covers
        (fun empty => absurd empty frontFilled) edge rfl)
      rwa [List.append_nil]
    obtain ⟨rest, rfl⟩ : front <+: best :=
      List.prefix_of_prefix_length_le (List.prefix_append _ _) prefixed (Nat.le_of_lt covers)
    have restFilled : rest ≠ [] := by
      rintro rfl
      rw [List.append_nil] at covers
      exact Nat.lt_irrefl _ covers
    apply not_mem_wholeWords filled found differs
    have more := Text.byteLength_pos restFilled
    rw [Text.byteLength_append, Text.byteLength_append]
    omega

end DepAtlas.StructureIndex
