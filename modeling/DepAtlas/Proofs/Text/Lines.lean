import DepAtlas.Proofs.Text.Boundary
import DepAtlas.Text.LineIndex

/-!
The lines of a text and their numbers. A stretch without line ends stands on the line that has as many line ends
before it as the stretch. The line index agrees with that: its starts increase, so that the search by halving
finds the last one up to an offset, and the starts up to an offset are as many as the line feeds before it, and
one more.
-/

namespace DepAtlas.Text

/-- The lines of a text without their line ends; one more than there are line ends. -/
def lineTexts (text : Text) : List Text :=
  splitWhere (· == '\n') text

theorem prefix_head_lineTexts {stretch : Text} (clean : '\n' ∉ stretch) (back : Text) :
    ∃ line, (lineTexts (stretch ++ back)).head? = some line ∧ stretch <+: line := by
  induction stretch with
  | nil =>
    cases lines : lineTexts back with
    | nil => exact absurd lines (splitWhere_ne_nil _ _)
    | cons line rest => exact ⟨line, by simp [lines], List.nil_prefix⟩
  | cons c rest ih =>
    obtain ⟨inner, clean⟩ : '\n' ≠ c ∧ '\n' ∉ rest := by simpa using clean
    obtain ⟨line, first, inLine⟩ := ih clean
    obtain ⟨piece, pieces, parts, whole⟩ := splitWhere_cons (· == '\n') c (rest ++ back)
    rw [lineTexts, parts, List.head?_cons] at first
    cases first
    refine ⟨c :: line, ?_, List.cons_prefix_cons.mpr ⟨rfl, inLine⟩⟩
    rw [List.cons_append, lineTexts, whole, if_neg (by simpa using inner.symm), List.head?_cons]

/-- A stretch without line ends stands on the line that has as many line ends before it. -/
theorem infix_lineTexts (front : Text) {stretch : Text} (clean : '\n' ∉ stretch) (back : Text) :
    ∃ line, (lineTexts (front ++ stretch ++ back))[front.count '\n']? = some line ∧
      stretch <:+: line := by
  induction front with
  | nil =>
    obtain ⟨line, first, inLine⟩ := prefix_head_lineTexts clean back
    exact ⟨line, by simpa [List.head?_eq_getElem?] using first, inLine.isInfix⟩
  | cons c rest ih =>
    obtain ⟨line, found, inLine⟩ := ih
    obtain ⟨piece, pieces, parts, whole⟩ :=
      splitWhere_cons (· == '\n') c (rest ++ stretch ++ back)
    rw [lineTexts, parts] at found
    rw [List.cons_append, List.cons_append, lineTexts, whole, List.count_cons]
    split
    · exact ⟨line, found, inLine⟩
    · rw [Nat.add_zero]
      generalize rest.count '\n' = number at found
      cases number with
      | zero =>
        cases found
        exact ⟨c :: line, rfl, inLine.trans (List.suffix_cons c line).isInfix⟩
      | succ number => exact ⟨line, found, inLine⟩

namespace LineIndex

open Utf8 (Stands encode)

/-- Number of line feeds among the bytes of a text below an offset. -/
def feedsBelow (text : Text) (offset : Nat) : Nat :=
  ((encode text).take offset).count '\n'.toUInt8

/-- The line that holds an offset starts after the last line feed below the offset, or with the text. -/
inductive StartsLine (text : Text) (offset : Nat) : Nat → Prop
  | first (clean : ∀ place < offset, ¬ Stands (encode text) '\n' place) : StartsLine text offset 0
  | after {place : Nat} (below : place < offset) (stands : Stands (encode text) '\n' place)
      (last : ∀ other < offset, Stands (encode text) '\n' other → other ≤ place) :
      StartsLine text offset (place + 1)

theorem le_of_mem_startsAfter {offset start : Nat} {text : Text}
    (member : start ∈ startsAfter offset text) : offset < start ∧ start ≤ offset + byteLength text := by
  induction text generalizing offset with
  | nil => cases member
  | cons c rest ih =>
    have positive := c.utf8Size_pos
    rw [startsAfter] at member
    rw [byteLength]
    split at member
    · rename_i lineEnd
      have size : c.utf8Size = 1 := by
        rw [beq_iff_eq.mp lineEnd]
        rfl
      rcases List.mem_cons.mp member with rfl | member
      · omega
      · have bounds := ih member
        omega
    · have bounds := ih member
      omega

theorem increasing_startsAfter (offset : Nat) (text : Text) :
    (offset :: startsAfter offset text).Pairwise (· < ·) := by
  induction text generalizing offset with
  | nil => exact List.pairwise_singleton _ _
  | cons c rest ih =>
    refine List.pairwise_cons.mpr ⟨fun start member => (le_of_mem_startsAfter member).1, ?_⟩
    rw [startsAfter]
    split
    · exact ih (offset + 1)
    · exact (ih _).tail

/-- The line feeds among the first bytes of a text are as many as the starts up to the end of these. -/
theorem countP_startsAfter (base count : Nat) (text : Text) :
    (startsAfter base text).countP (· ≤ base + count) =
      ((encode text).take count).count '\n'.toUInt8 := by
  induction text generalizing base count with
  | nil => simp [startsAfter, Utf8.encode]
  | cons c rest ih =>
    have later {start : Nat} (beyond : base + count ≤ start) :
        (startsAfter start rest).countP (· ≤ base + count) = 0 := by
      refine List.countP_eq_zero.mpr fun other member => ?_
      have after := (le_of_mem_startsAfter member).1
      simp only [decide_eq_true_eq]
      omega
    rw [startsAfter, Utf8.encode_cons]
    by_cases lineEnd : c = '\n'
    · subst lineEnd
      rw [if_pos BEq.rfl, List.countP_cons, String.utf8EncodeChar_eq_singleton (by decide),
        List.singleton_append]
      cases count with
      | zero =>
        rw [later (by omega)]
        simp
      | succ count =>
        have fewer := ih (base + 1) count
        rw [Nat.add_assoc, Nat.add_comm 1] at fewer
        rw [fewer, List.take_succ_cons, List.count_cons, if_pos (by simp), if_pos (by rfl)]
    · have absent : '\n'.toUInt8 ∉ (String.utf8EncodeChar c).take count := fun member => by
        obtain ⟨place, stands⟩ := List.mem_iff_getElem?.mp (List.mem_of_mem_take member)
        exact lineEnd (Utf8.eq_of_stands_encodeChar (by decide) stands).1
      rw [if_neg (by simpa using lineEnd), List.take_append, List.count_append,
        List.count_eq_zero_of_not_mem absent, Nat.zero_add, String.length_utf8EncodeChar]
      rcases Nat.le_total c.utf8Size count with whole | part
      · rw [← ih (base + c.utf8Size), Nat.add_assoc, Nat.add_sub_cancel' whole]
      · rw [later (by omega), Nat.sub_eq_zero_of_le part, List.take_zero, List.count_nil]

theorem feedsBelow_append (front back : Text) :
    feedsBelow (front ++ back) (byteLength front) = front.count '\n' := by
  rw [feedsBelow, Utf8.encode_append, ← Utf8.length_encode, List.take_left, Utf8.count_encode (by decide)]

theorem feedsBelow_mono (text : Text) {offset later : Nat} (ordered : offset ≤ later) :
    feedsBelow text offset ≤ feedsBelow text later :=
  (List.take_sublist_take_left ordered).count_le _

theorem feedsBelow_le (text : Text) (offset : Nat) : feedsBelow text offset ≤ text.count '\n' := by
  rw [← Utf8.count_encode (by decide) text]
  exact (List.take_sublist offset _).count_le _

/-- A start comes right after a line feed, and after each line feed there is one. -/
theorem mem_startsAfter {base start : Nat} {text : Text} :
    start ∈ startsAfter base text ↔
      ∃ place, Stands (encode text) '\n' place ∧ start = base + place + 1 := by
  induction text generalizing base with
  | nil => exact iff_of_false List.not_mem_nil fun ⟨place, stands, _⟩ => nomatch stands
  | cons c rest ih =>
    have narrow : '\n'.utf8Size = 1 := by decide
    rw [startsAfter]
    constructor
    · intro member
      split at member
      case isTrue lineEnd =>
        obtain rfl := beq_iff_eq.mp lineEnd
        rcases List.mem_cons.mp member with rfl | member
        · exact ⟨0, (Utf8.stands_cons narrow).mpr (.inl ⟨rfl, rfl⟩), rfl⟩
        · obtain ⟨place, stands, rfl⟩ := ih.mp member
          exact ⟨_, (Utf8.stands_cons narrow).mpr (.inr ⟨place, stands, rfl⟩), by omega⟩
      case isFalse =>
        obtain ⟨place, stands, rfl⟩ := ih.mp member
        exact ⟨_, (Utf8.stands_cons narrow).mpr (.inr ⟨place, stands, rfl⟩), by omega⟩
    · rintro ⟨place, stands, rfl⟩
      rcases (Utf8.stands_cons narrow).mp stands with ⟨rfl, rfl⟩ | ⟨later, there, rfl⟩
      · exact List.mem_cons_self
      · split
        case isTrue lineEnd =>
          obtain rfl := beq_iff_eq.mp lineEnd
          exact List.mem_cons_of_mem _ (ih.mpr ⟨later, there, by omega⟩)
        case isFalse => exact ih.mpr ⟨later, there, by omega⟩

theorem mem_starts {start : Nat} {text : Text} :
    start ∈ (ofText text).starts ↔
      start = 0 ∨ ∃ place, Stands (encode text) '\n' place ∧ start = place + 1 := by
  rw [ofText, List.mem_toArray, List.mem_cons, mem_startsAfter]
  simp only [Nat.zero_add]

structure Sorted (index : LineIndex) : Prop where
  first : index.starts[0]? = some 0
  increasing : index.starts.toList.Pairwise (· < ·)

theorem sorted_ofText (text : Text) : (ofText text).Sorted where
  first := rfl
  increasing := increasing_startsAfter 0 text

/-- The starts before `low` are below an offset, and those from `high` on are above it. -/
structure Brackets (index : LineIndex) (offset low high : Nat) : Prop where
  below : ∀ position start, index.starts[position]? = some start → position < low → start < offset
  above : ∀ position start, index.starts[position]? = some start → high ≤ position → offset < start

/-- A finding is right: the line with the position starts at the offset, or no line does and those that
start before the offset are the lines before the position. -/
def Finding.Tells (index : LineIndex) (offset : Nat) : Finding → Prop
  | .found position => index.starts[position]? = some offset
  | .missing position => position ≤ index.starts.size ∧ index.Brackets offset position position

namespace Sorted

variable {index : LineIndex} (sorted : index.Sorted) (offset : Nat)
include sorted

theorem lt {position later start next : Nat} (isStart : index.starts[position]? = some start)
    (isNext : index.starts[later]? = some next) (before : position < later) : start < next := by
  rw [← Array.getElem?_toList] at isStart isNext
  obtain ⟨first, rfl⟩ := List.getElem?_eq_some_iff.mp isStart
  obtain ⟨second, rfl⟩ := List.getElem?_eq_some_iff.mp isNext
  exact List.pairwise_iff_getElem.mp sorted.increasing position later first second before

theorem le {position later start next : Nat} (isStart : index.starts[position]? = some start)
    (isNext : index.starts[later]? = some next) (ordered : position ≤ later) : start ≤ next := by
  rcases Nat.eq_or_lt_of_le ordered with rfl | before
  · exact Nat.le_of_eq (Option.some.inj (isStart.symm.trans isNext))
  · exact Nat.le_of_lt (sorted.lt isStart isNext before)

theorem search_tells {low high : Nat} (inside : high ≤ index.starts.size) (ordered : low ≤ high)
    (brackets : index.Brackets offset low high) :
    (index.search offset low high inside).Tells index offset := by
  fun_induction search index offset low high inside with
  | case1 low high inside filled middle here =>
    rw [← here]
    exact Array.getElem?_eq_getElem _
  | case2 low high inside filled middle apart below ih =>
    have isMiddle : index.starts[middle]? = some index.starts[middle] := Array.getElem?_eq_getElem _
    refine ih (by omega) ⟨fun position start isStart before => ?_, brackets.above⟩
    exact Nat.lt_of_le_of_lt (sorted.le isStart isMiddle (Nat.le_of_lt_succ before)) below
  | case3 low high inside filled middle apart above ih =>
    have isMiddle : index.starts[middle]? = some index.starts[middle] := Array.getElem?_eq_getElem _
    refine ih (by omega) ⟨brackets.below, fun position start isStart after => ?_⟩
    have beyond := sorted.le isMiddle isStart after
    omega
  | case4 low high inside empty =>
    obtain rfl : low = high := by omega
    exact ⟨inside, brackets⟩

theorem search_starts_tells :
    (index.search offset 0 index.starts.size (Nat.le_refl _)).Tells index offset := by
  refine sorted.search_tells offset _ (Nat.zero_le _)
    ⟨fun _ _ _ before => absurd before (Nat.not_lt_zero _), ?_⟩
  intro position start isStart beyond
  obtain ⟨inside, -⟩ := Array.getElem?_eq_some_iff.mp isStart
  omega

/-- No start would be inserted before the first one. -/
theorem search_ne_missing_zero :
    index.search offset 0 index.starts.size (Nat.le_refl _) ≠ .missing 0 := by
  intro isMissing
  have tells := sorted.search_starts_tells offset
  rw [isMissing] at tells
  exact Nat.not_lt_zero _ (tells.2.above 0 0 sorted.first (Nat.le_refl 0))

/-- The line of an offset is the last one that starts up to it. -/
theorem lineAt_spec :
    ∃ start, index.starts[index.lineAt offset]? = some start ∧ start ≤ offset ∧
      ∀ position later, index.starts[position]? = some later → index.lineAt offset < position →
        offset < later := by
  have tells := sorted.search_starts_tells offset
  have positive := sorted.search_ne_missing_zero offset
  rw [lineAt]
  generalize index.search offset 0 index.starts.size (Nat.le_refl _) = finding at tells positive
  cases finding with
  | found position =>
    exact ⟨offset, tells, Nat.le_refl _, fun later next isNext after => sorted.lt tells isNext after⟩
  | missing position =>
    cases position with
    | zero => exact absurd rfl positive
    | succ position =>
      obtain ⟨inside, brackets⟩ := tells
      refine ⟨_, Array.getElem?_eq_getElem inside, ?_, fun later next isNext after => ?_⟩
      · exact Nat.le_of_lt (brackets.below _ _ (Array.getElem?_eq_getElem inside) (Nat.lt_succ_self _))
      · exact brackets.above _ _ isNext after

/-- The lines up to an offset are as many as the starts up to it. -/
theorem lineAt_add_one : index.lineAt offset + 1 = index.starts.toList.countP (· ≤ offset) := by
  obtain ⟨start, isStart, upTo, beyond⟩ := sorted.lineAt_spec offset
  obtain ⟨inside, -⟩ := Array.getElem?_eq_some_iff.mp isStart
  have before : (index.starts.toList.take (index.lineAt offset + 1)).countP (· ≤ offset) =
      index.lineAt offset + 1 := by
    rw [List.countP_eq_length.mpr, List.length_take, Array.length_toList, Nat.min_eq_left inside]
    intro other member
    obtain ⟨position, isOther⟩ := List.mem_iff_getElem?.mp member
    rw [List.getElem?_take, Array.getElem?_toList] at isOther
    split at isOther
    case isTrue early =>
      have ordered := sorted.le isOther isStart (Nat.le_of_lt_succ early)
      exact decide_eq_true (Nat.le_trans ordered upTo)
    case isFalse => cases isOther
  have after : (index.starts.toList.drop (index.lineAt offset + 1)).countP (· ≤ offset) = 0 := by
    refine List.countP_eq_zero.mpr fun other member => ?_
    obtain ⟨position, isOther⟩ := List.mem_iff_getElem?.mp member
    rw [List.getElem?_drop, Array.getElem?_toList] at isOther
    have later := beyond _ other isOther (by omega)
    simpa using later
  rw [← List.take_append_drop (index.lineAt offset + 1) index.starts.toList, List.countP_append, before,
    after, Nat.add_zero]

/-- The start of the line of an offset is the greatest start up to the offset. -/
theorem lineStart_spec :
    index.starts[index.lineAt offset]? = some (index.lineStart offset) ∧ index.lineStart offset ≤ offset ∧
      ∀ start ∈ index.starts, start ≤ offset → start ≤ index.lineStart offset := by
  obtain ⟨start, isStart, upTo, beyond⟩ := sorted.lineAt_spec offset
  rw [lineStart, isStart, Option.getD_some]
  refine ⟨rfl, upTo, fun other member early => ?_⟩
  obtain ⟨position, isOther⟩ := Array.mem_iff_getElem?.mp member
  rcases Nat.lt_or_ge (index.lineAt offset) position with after | before
  · have later := beyond position other isOther after
    omega
  · exact sorted.le isOther isStart before

end Sorted

section OfText

variable (text : Text) (offset : Nat)

theorem lineAt_ofText : (ofText text).lineAt offset = feedsBelow text offset := by
  have upTo := (sorted_ofText text).lineAt_add_one offset
  have feeds := countP_startsAfter 0 offset text
  rw [ofText, List.countP_cons, if_pos (by simp)] at upTo
  rw [Nat.zero_add] at feeds
  rw [feedsBelow, ← feeds]
  exact Nat.add_right_cancel upTo

/-- The number of a line is one more than the number of line feeds before it. -/
theorem lineOf_ofText : (ofText text).lineOf offset = min (feedsBelow text offset + 1) maxLine := by
  rw [lineOf, lineAt_ofText]

theorem lineOf_pos : 1 ≤ (ofText text).lineOf offset := by
  rw [lineOf_ofText]
  exact Nat.le_min.mpr ⟨Nat.succ_pos _, by decide⟩

theorem lineOf_le : (ofText text).lineOf offset ≤ text.count '\n' + 1 := by
  rw [lineOf_ofText]
  exact Nat.le_trans (Nat.min_le_left _ _) (Nat.succ_le_succ (feedsBelow_le text offset))

theorem lineOf_mono {later : Nat} (ordered : offset ≤ later) :
    (ofText text).lineOf offset ≤ (ofText text).lineOf later := by
  have more := feedsBelow_mono text ordered
  rw [lineOf_ofText, lineOf_ofText]
  omega

theorem startsLine_lineStart : StartsLine text offset ((ofText text).lineStart offset) := by
  obtain ⟨isStart, upTo, greatest⟩ := (sorted_ofText text).lineStart_spec offset
  have early (place : Nat) (below : place < offset) (stands : Stands (encode text) '\n' place) :
      place + 1 ≤ (ofText text).lineStart offset :=
    greatest (place + 1) (mem_starts.mpr (.inr ⟨place, stands, rfl⟩)) below
  rcases mem_starts.mp (Array.mem_of_getElem? isStart) with isFirst | ⟨last, stands, isAfter⟩
  · rw [isFirst] at early ⊢
    exact .first fun place below stands => Nat.not_succ_le_zero place (early place below stands)
  · rw [isAfter] at early upTo ⊢
    exact .after upTo stands fun place below stands => Nat.le_of_succ_le_succ (early place below stands)

end OfText

end LineIndex

end DepAtlas.Text
