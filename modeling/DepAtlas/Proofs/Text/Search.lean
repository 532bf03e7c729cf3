import DepAtlas.Proofs.Text.Basic

/-!
What is found in a text: the first character of a kind, the first one that is not blank, and the lines,
each of which reaches up to its line end.
-/

namespace DepAtlas.Text

variable {test : Char → Bool} {text front back : Text} {c : Char}

theorem findWhere?_append (clean : ∀ c ∈ front, test c = false) (back : Text) :
    findWhere? test (front ++ back) = (findWhere? test back).map (byteLength front + ·) := by
  induction front with
  | nil => simp [byteLength]
  | cons c rest ih =>
    obtain ⟨here, cleanRest⟩ := List.forall_mem_cons.mp clean
    rw [List.cons_append, findWhere?, here, if_neg Bool.false_ne_true, ih cleanRest, Option.map_map,
      byteLength]
    congr 1
    funext place
    show byteLength rest + place + c.utf8Size = c.utf8Size + byteLength rest + place
    omega

theorem findWhere?_eq_none (clean : ∀ c ∈ text, test c = false) : findWhere? test text = none := by
  have whole := findWhere?_append clean []
  rwa [List.append_nil] at whole

theorem findWhere?_first (clean : ∀ c ∈ front, test c = false) (hit : test c = true) (back : Text) :
    findWhere? test (front ++ c :: back) = some (byteLength front) := by
  rw [findWhere?_append clean, findWhere?, if_pos hit]
  rfl

/-- A text is free of a kind of characters, or it has a first one. -/
theorem exists_first (test : Char → Bool) (text : Text) :
    (∀ c ∈ text, test c = false) ∨
      ∃ front c back, text = front ++ c :: back ∧ (∀ c ∈ front, test c = false) ∧ test c = true := by
  induction text with
  | nil => exact .inl nofun
  | cons c rest ih =>
    cases here : test c with
    | true => exact .inr ⟨[], c, rest, rfl, nofun, here⟩
    | false =>
      rcases ih with clean | ⟨front, hit, back, parts, clean, isHit⟩
      · exact .inl (List.forall_mem_cons.mpr ⟨here, clean⟩)
      · exact .inr ⟨c :: front, hit, back, by rw [parts]; rfl, List.forall_mem_cons.mpr ⟨here, clean⟩,
          isHit⟩

/-- A character that does not stand in the front part of a text stands after it. -/
theorem exists_of_append_eq {whole rest : Text} (absent : c ∉ front)
    (parts : front ++ whole = back ++ c :: rest) :
    ∃ inner, back = front ++ inner ∧ whole = inner ++ c :: rest := by
  rcases List.append_eq_append_iff.mp parts with ⟨inner, isBack, inWhole⟩ | ⟨inner, isFront, inFront⟩
  · exact ⟨inner, isBack, inWhole⟩
  · cases inner with
    | nil => exact ⟨[], by rw [isFront, List.append_nil, List.append_nil], inFront.symm⟩
    | cons other inner =>
      obtain ⟨rfl, -⟩ := List.cons.inj inFront
      exact absurd (isFront ▸ by simp) absent

/-- A character that does not stand in the back part of a text stands before it. -/
theorem exists_of_eq_append {whole rest : Text} (absent : c ∉ back)
    (parts : whole ++ back = front ++ c :: rest) : ∃ later, whole = front ++ c :: later := by
  rcases List.append_eq_append_iff.mp parts with ⟨inner, -, inBack⟩ | ⟨inner, isWhole, inWhole⟩
  · exact absurd (inBack ▸ by simp) absent
  · cases inner with
    | nil =>
      rw [List.nil_append] at inWhole
      exact absurd (inWhole ▸ List.mem_cons_self) absent
    | cons other inner =>
      obtain ⟨rfl, -⟩ := List.cons.inj inWhole
      exact ⟨inner, isWhole⟩

theorem dropEndWhile_cons (stays : test c = false) (rest : Text) :
    dropEndWhile test (c :: rest) = c :: dropEndWhile test rest := by
  unfold dropEndWhile
  rw [List.reverse_cons, List.dropWhile_append]
  split
  case isTrue empty =>
    rw [List.isEmpty_iff.mp empty, List.dropWhile_cons_of_neg (by simp [stays])]
    rfl
  case isFalse => rw [List.reverse_append, List.reverse_singleton, List.singleton_append]

theorem trim_of_blank (blank : ∀ c ∈ text, isBlank c = true) : trim text = [] := by
  have dropped : (text ++ []).dropWhile isBlank = [] := List.dropWhile_append_of_pos blank
  rw [List.append_nil] at dropped
  rw [trim, trimWhere, dropped]
  rfl

theorem trim_of_ink (blank : ∀ c ∈ front, isBlank c = true) (ink : isBlank c = false) (back : Text) :
    trim (front ++ c :: back) = c :: dropEndWhile isBlank back := by
  rw [trim, trimWhere, List.dropWhile_append_of_pos blank,
    List.dropWhile_cons_of_neg (by simp [ink]), dropEndWhile_cons ink]

/-- The lines of a text, each with its line end. -/
inductive HasLines : Text → List Text → Prop
  | nothing : HasLines [] []
  | last {line : Text} (filled : line ≠ []) (clean : '\n' ∉ line) : HasLines line [line]
  | more {line rest : Text} {lines : List Text} (clean : '\n' ∉ line) (others : HasLines rest lines) :
      HasLines (line ++ '\n' :: rest) ((line ++ ['\n']) :: lines)

theorem hasLines_lines (text : Text) : HasLines text (lines text) := by
  induction text with
  | nil => exact .nothing
  | cons c rest ih =>
    rw [lines]
    by_cases lineEnd : c = '\n'
    · subst lineEnd
      exact HasLines.more List.not_mem_nil ih
    rw [if_neg (by simpa using lineEnd)]
    generalize lines rest = found at ih
    cases ih with
    | nothing => exact .last (List.cons_ne_nil _ _) (by simpa using Ne.symm lineEnd)
    | last filled clean => exact .last (List.cons_ne_nil _ _) (by simp [Ne.symm lineEnd, clean])
    | @more line _ _ clean others =>
      have cleanLine : '\n' ∉ c :: line := by simp [Ne.symm lineEnd, clean]
      exact .more cleanLine others

theorem lines_of_clean {line : Text} (filled : line ≠ []) (clean : '\n' ∉ line) :
    lines line = [line] := by
  induction line with
  | nil => exact absurd rfl filled
  | cons c rest ih =>
    obtain ⟨here, cleanRest⟩ : '\n' ≠ c ∧ '\n' ∉ rest := by simpa using clean
    rw [lines, if_neg (by simpa using here.symm)]
    cases rest with
    | nil => rfl
    | cons other rest => rw [ih (List.cons_ne_nil _ _) cleanRest]

theorem lines_of_line {line : Text} (clean : '\n' ∉ line) (rest : Text) :
    lines (line ++ '\n' :: rest) = (line ++ ['\n']) :: lines rest := by
  induction line with
  | nil => rw [List.nil_append, lines, if_pos BEq.rfl, List.nil_append]
  | cons c line ih =>
    obtain ⟨here, cleanLine⟩ : '\n' ≠ c ∧ '\n' ∉ line := by simpa using clean
    rw [List.cons_append, lines, if_neg (by simpa using here.symm), ih cleanLine, List.cons_append]

theorem HasLines.eq_lines {found : List Text} (hasLines : HasLines text found) : lines text = found := by
  induction hasLines with
  | nothing => rfl
  | last filled clean => exact lines_of_clean filled clean
  | more clean others ih => rw [lines_of_line clean, ih]

end DepAtlas.Text
