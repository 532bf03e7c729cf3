import DepAtlas.Text.Basic

/-!
Texts cut at a number of bytes, and split at some characters.
-/

namespace DepAtlas.Text

theorem byteLength_append (front back : Text) :
    byteLength (front ++ back) = byteLength front + byteLength back := by
  induction front with
  | nil => simp [byteLength]
  | cons c rest ih => simp only [List.cons_append, byteLength, ih, Nat.add_assoc]

theorem byteLength_pos {text : Text} (filled : text ≠ []) : 0 < byteLength text := by
  obtain ⟨c, rest, rfl⟩ := List.exists_cons_of_ne_nil filled
  have positive := c.utf8Size_pos
  rw [byteLength]
  omega

theorem byteLength_le_of_prefix {short long : Text} (starts : short <+: long) :
    byteLength short ≤ byteLength long := by
  obtain ⟨rest, rfl⟩ := starts
  rw [byteLength_append]
  exact Nat.le_add_right _ _

theorem takeBytes_byteLength_append (front back : Text) :
    takeBytes (byteLength front) (front ++ back) = front := by
  induction front with
  | nil => rw [byteLength, takeBytes]
  | cons c rest ih =>
    have positive := c.utf8Size_pos
    obtain ⟨size, total⟩ : ∃ size, c.utf8Size + byteLength rest = size + 1 :=
      ⟨c.utf8Size + byteLength rest - 1, by omega⟩
    rw [byteLength, total, List.cons_append, takeBytes, ← total, Nat.add_sub_cancel_left, ih]

theorem splitWhere_ne_nil (test : Char → Bool) (text : Text) : splitWhere test text ≠ [] := by
  cases text with
  | nil => simp [splitWhere]
  | cons c rest =>
    rw [splitWhere]
    split
    · simp
    · split <;> simp

/-- The pieces of a text that begins with a character: the character goes in front of the first piece, or
ends an empty one. -/
theorem splitWhere_cons (test : Char → Bool) (c : Char) (rest : Text) :
    ∃ piece pieces, splitWhere test rest = piece :: pieces ∧
      splitWhere test (c :: rest) =
        if test c then [] :: piece :: pieces else (c :: piece) :: pieces := by
  cases parts : splitWhere test rest with
  | nil => exact absurd parts (splitWhere_ne_nil test rest)
  | cons piece pieces =>
    refine ⟨piece, pieces, rfl, ?_⟩
    rw [splitWhere, parts]

/-- No piece holds a character at which the text was split. -/
theorem splitWhere_avoids {test : Char → Bool} {text piece : Text}
    (member : piece ∈ splitWhere test text) : ∀ c ∈ piece, test c = false := by
  induction text generalizing piece with
  | nil =>
    cases List.mem_singleton.mp member
    exact nofun
  | cons c rest ih =>
    obtain ⟨first, others, parts, whole⟩ := splitWhere_cons test c rest
    rw [parts] at ih
    rw [whole] at member
    split at member
    · rcases List.mem_cons.mp member with rfl | member
      · exact nofun
      · exact ih member
    case isFalse inside =>
      rcases List.mem_cons.mp member with rfl | member
      · intro other isOther
        rcases List.mem_cons.mp isOther with rfl | isOther
        · exact eq_false_of_ne_true inside
        · exact ih List.mem_cons_self other isOther
      · exact ih (List.mem_cons_of_mem _ member)

/-- A text without such a character is one piece. -/
theorem splitWhere_of_avoids {test : Char → Bool} {text : Text} (avoids : ∀ c ∈ text, test c = false) :
    splitWhere test text = [text] := by
  induction text with
  | nil => rfl
  | cons c rest ih =>
    have inside := avoids c List.mem_cons_self
    rw [splitWhere, ih fun other member => avoids other (List.mem_cons_of_mem _ member)]
    simp [inside]

/-- A text is split at every such character. -/
theorem splitWhere_append {test : Char → Bool} {c : Char} (splits : test c = true) (front back : Text) :
    splitWhere test (front ++ c :: back) = splitWhere test front ++ splitWhere test back := by
  induction front with
  | nil =>
    obtain ⟨piece, pieces, parts, whole⟩ := splitWhere_cons test c back
    rw [List.nil_append, whole, if_pos splits, parts]
    rfl
  | cons first rest ih =>
    obtain ⟨piece, pieces, parts, whole⟩ := splitWhere_cons test first rest
    rw [List.cons_append, splitWhere, ih, parts, whole]
    cases test first <;> rfl

end DepAtlas.Text
