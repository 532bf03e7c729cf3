import DepAtlas.Proofs.Text.Bytes
import DepAtlas.Proofs.Text.Search

/-!
The offsets at which a text can be cut, which are those between two characters and at its ends, and what a
search in a text finds as such offsets.
-/

namespace DepAtlas.Text

/-- Whether an offset lies between two characters of a text, or at one of its ends. -/
def isBoundary : Nat → Text → Bool
  | 0, _ => true
  | _ + 1, [] => false
  | n + 1, c :: rest => c.utf8Size ≤ n + 1 && isBoundary (n + 1 - c.utf8Size) rest
termination_by structural _ text => text

/-- The text between two offsets. There is none if the offsets are out of order, or if one of them lies
inside a character or beyond the end. -/
def slice? (text : Text) (start stop : Nat) : Option Text :=
  if start ≤ stop ∧ isBoundary start text = true ∧ isBoundary stop text = true then
    some (slice text start stop)
  else none

variable {text front back : Text} {start stop place : Nat}

@[simp] theorem isBoundary_zero (text : Text) : isBoundary 0 text = true := by
  rw [isBoundary]

@[simp] theorem isBoundary_append (front back : Text) :
    isBoundary (byteLength front) (front ++ back) = true := by
  induction front with
  | nil => exact isBoundary_zero back
  | cons c rest ih =>
    have positive := c.utf8Size_pos
    obtain ⟨size, total⟩ : ∃ size, c.utf8Size + byteLength rest = size + 1 :=
      ⟨c.utf8Size + byteLength rest - 1, by omega⟩
    rw [byteLength, total, List.cons_append, isBoundary, ← total, Nat.add_sub_cancel_left, ih,
      Bool.and_true, decide_eq_true (Nat.le_add_right _ _)]

theorem isBoundary_of_parts (front : Text) (parts : text = front ++ back) (width : place = byteLength front) :
    isBoundary place text = true := by
  rw [parts, width, isBoundary_append]

@[simp] theorem isBoundary_byteLength (text : Text) : isBoundary (byteLength text) text = true := by
  simpa using isBoundary_append text []

theorem exists_of_isBoundary (cuts : isBoundary place text = true) :
    ∃ front back, text = front ++ back ∧ place = byteLength front := by
  induction text generalizing place with
  | nil =>
    cases place with
    | zero => exact ⟨[], [], rfl, rfl⟩
    | succ place => cases cuts
  | cons c rest ih =>
    cases place with
    | zero => exact ⟨[], c :: rest, rfl, rfl⟩
    | succ place =>
      rw [isBoundary, Bool.and_eq_true, decide_eq_true_eq] at cuts
      obtain ⟨front, back, rfl, before⟩ := ih cuts.2
      refine ⟨c :: front, back, rfl, ?_⟩
      rw [byteLength]
      omega

theorem le_of_isBoundary (cuts : isBoundary place text = true) : place ≤ byteLength text := by
  obtain ⟨front, back, rfl, rfl⟩ := exists_of_isBoundary cuts
  rw [byteLength_append]
  exact Nat.le_add_right _ _

/-- Two offsets at which a text can be cut leave a part between them. -/
theorem exists_between (ordered : start ≤ stop) (starts : isBoundary start text = true)
    (ends : isBoundary stop text = true) :
    ∃ front middle back, text = front ++ (middle ++ back) ∧ start = byteLength front ∧
      stop = byteLength front + byteLength middle := by
  obtain ⟨front, rest, rfl, rfl⟩ := exists_of_isBoundary starts
  obtain ⟨longer, back, parts, rfl⟩ := exists_of_isBoundary ends
  rcases List.append_eq_append_iff.mp parts with ⟨middle, rfl, rfl⟩ | ⟨beyond, rfl, rfl⟩
  · exact ⟨front, middle, back, rfl, rfl, byteLength_append front middle⟩
  · -- The second part ends where the first one does.
    cases beyond with
    | nil => exact ⟨longer, [], rest, by simp, by simp, by simp [byteLength]⟩
    | cons c beyond =>
      have positive := byteLength_pos (List.cons_ne_nil c beyond)
      rw [byteLength_append] at ordered
      omega

/-- The parts of a text are told by the size of the first one. -/
theorem append_inj_of_byteLength {front' back' : Text} (parts : front ++ back = front' ++ back')
    (same : byteLength front = byteLength front') : front = front' ∧ back = back' := by
  constructor
  · rw [← takeBytes_byteLength_append front back, parts, same, takeBytes_byteLength_append]
  · rw [← dropBytes_byteLength_append front back, parts, same, dropBytes_byteLength_append]

theorem slice?_eq (ordered : start ≤ stop) (starts : isBoundary start text = true)
    (ends : isBoundary stop text = true) : slice? text start stop = some (slice text start stop) :=
  if_pos ⟨ordered, starts, ends⟩

theorem slice?_front (ends : isBoundary stop text = true) :
    slice? text 0 stop = some (takeBytes stop text) := by
  rw [slice?_eq (Nat.zero_le stop) (isBoundary_zero text) ends, slice, dropBytes, Nat.sub_zero]

theorem slice?_back (starts : isBoundary start text = true) :
    slice? text start (byteLength text) = some (dropBytes start text) := by
  rw [slice?_eq (le_of_isBoundary starts) starts (isBoundary_byteLength text)]
  obtain ⟨front, back, rfl, rfl⟩ := exists_of_isBoundary starts
  have whole := slice_append front back []
  rw [List.append_nil] at whole
  rw [byteLength_append, whole, dropBytes_byteLength_append]

theorem isBoundary_after {mark : Char} (narrow : mark.utf8Size = 1) (front back : Text) :
    isBoundary (byteLength front + 1) (front ++ mark :: back) = true := by
  have after := isBoundary_append (front ++ [mark]) back
  rwa [byteLength_append, byteLength, narrow, List.append_assoc] at after

section Found

variable {test : Char → Bool} {mark : Text}

theorem exists_of_findWhere? (found : findWhere? test text = some place) :
    ∃ front c back, text = front ++ c :: back ∧ place = byteLength front ∧ test c = true ∧
      ∀ other ∈ front, test other = false := by
  rcases exists_first test text with clean | ⟨front, c, back, rfl, clean, isHit⟩
  · rw [findWhere?_eq_none clean] at found
    cases found
  · rw [findWhere?_first clean isHit, Option.some_inj] at found
    exact ⟨front, c, back, rfl, found.symm, isHit, clean⟩

theorem exists_of_find? (found : find? mark text = some place) :
    ∃ front back, text = front ++ (mark ++ back) ∧ place = byteLength front := by
  induction text generalizing place with
  | nil =>
    cases mark with
    | nil => exact ⟨[], [], rfl, (Option.some.inj found).symm⟩
    | cons c mark => cases found
  | cons c rest ih =>
    rw [find?] at found
    split at found
    case isTrue starts =>
      obtain ⟨back, parts⟩ := List.isPrefixOf_iff_prefix.mp starts
      exact ⟨[], back, parts.symm, (Option.some.inj found).symm⟩
    case isFalse =>
      obtain ⟨later, isLater, rfl⟩ := Option.map_eq_some_iff.mp found
      obtain ⟨front, back, rfl, rfl⟩ := ih isLater
      exact ⟨c :: front, back, rfl, Nat.add_comm _ _⟩

end Found

namespace Utf8

variable {mark : Char}

theorem isBoundary_of_stands (narrow : mark.utf8Size = 1) (stands : Stands (encode text) mark place) :
    isBoundary place text = true ∧ isBoundary (place + 1) text = true := by
  obtain ⟨front, back, rfl, rfl⟩ := exists_of_stands narrow stands
  exact ⟨isBoundary_append front _, isBoundary_after narrow front back⟩

theorem count_encode (narrow : mark.utf8Size = 1) (text : Text) :
    (encode text).count mark.toUInt8 = text.count mark := by
  induction text with
  | nil => rfl
  | cons c rest ih =>
    rw [encode_cons, List.count_append, ih, List.count_cons, Nat.add_comm]
    congr 1
    by_cases same : c = mark
    · subst same
      rw [String.utf8EncodeChar_eq_singleton narrow, if_pos BEq.rfl]
      exact List.count_singleton_self
    · rw [if_neg (by simpa using same), List.count_eq_zero]
      intro member
      obtain ⟨place, stands⟩ := List.mem_iff_getElem?.mp member
      exact same (eq_of_stands_encodeChar narrow stands).1

end Utf8

end DepAtlas.Text
