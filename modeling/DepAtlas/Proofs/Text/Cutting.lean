import Mathlib.Data.Bool.AllAny
import Mathlib.Data.List.Infix
import DepAtlas.Proofs.Text.Search

/-!
Texts that are cut before a mark, and blanks that are dropped from both ends. Dropping blanks keeps all
characters that are not blank, and so their number tells whether more than blanks was lost.
-/

namespace DepAtlas.Text

variable {test : Char → Bool} {text front back mark blanks : Text} {c : Char}

/-- The number of characters that are not blank. -/
def ink (text : Text) : Nat :=
  text.countP fun c => !isBlank c

theorem ink_append (front back : Text) : ink (front ++ back) = ink front + ink back :=
  List.countP_append

theorem ink_cons_ink (isInk : isBlank c = false) (text : Text) : ink (c :: text) = ink text + 1 :=
  List.countP_cons_of_pos (by simp [isInk])

theorem ink_cons_blank (blank : isBlank c = true) (text : Text) : ink (c :: text) = ink text :=
  List.countP_cons_of_neg (by simp [blank])

/-- What follows the blanks at the start of a text does not depend on how it is taken apart. -/
theorem eq_of_blank_append {other rest rest' : Text} {d : Char} (blank : ∀ c ∈ front, isBlank c = true)
    (blank' : ∀ c ∈ other, isBlank c = true) (isInk : isBlank c = false) (isInk' : isBlank d = false)
    (parts : front ++ c :: rest = other ++ d :: rest') : c :: rest = d :: rest' := by
  have same := congrArg (List.dropWhile isBlank) parts
  rwa [List.dropWhile_append_of_pos blank, List.dropWhile_append_of_pos blank',
    List.dropWhile_cons_of_neg (by simp [isInk]), List.dropWhile_cons_of_neg (by simp [isInk'])] at same

theorem ink_of_blank (blank : ∀ c ∈ text, isBlank c = true) : ink text = 0 :=
  List.countP_eq_zero.mpr fun c member => by simp [blank c member]

theorem ink_le_of_sublist (shorter : front.Sublist text) : ink front ≤ ink text :=
  shorter.countP_le

section Dropping

/-- Only characters that pass the test are dropped from the end. -/
theorem exists_of_dropEndWhile (test : Char → Bool) (text : Text) :
    ∃ dropped, text = dropEndWhile test text ++ dropped ∧ ∀ c ∈ dropped, test c = true := by
  refine ⟨(text.reverse.takeWhile test).reverse, ?_, fun c member => ?_⟩
  · rw [dropEndWhile, ← List.reverse_append, List.takeWhile_append_dropWhile, List.reverse_reverse]
  · exact List.all_eq_true.mp List.all_takeWhile c (List.mem_reverse.mp member)

theorem dropEndWhile_append (dropped : ∀ c ∈ back, test c = true) :
    dropEndWhile test (front ++ back) = dropEndWhile test front := by
  rw [dropEndWhile, dropEndWhile, List.reverse_append, List.dropWhile_append_of_pos]
  exact fun c member => dropped c (List.mem_reverse.mp member)

theorem dropEndWhile_stop (stays : test c = false) (front back : Text) :
    dropEndWhile test (front ++ c :: back) = front ++ c :: dropEndWhile test back := by
  have reversed : (front ++ c :: back).reverse = back.reverse ++ (c :: front.reverse) := by simp
  rw [dropEndWhile, reversed, List.dropWhile_append, dropEndWhile]
  split
  case isTrue empty =>
    rw [List.isEmpty_iff.mp empty, List.dropWhile_cons_of_neg (by simp [stays])]
    simp
  case isFalse => simp

theorem dropEndWhile_eq_self (stays : ∀ c, text.getLast? = some c → test c = false) :
    dropEndWhile test text = text := by
  rcases List.eq_nil_or_concat text with rfl | ⟨front, last, rfl⟩
  · rfl
  · have isLast := stays last (by simp)
    rw [List.concat_eq_append, dropEndWhile_stop isLast]
    rfl

theorem dropEndWhile_sublist (test : Char → Bool) (text : Text) :
    (dropEndWhile test text).Sublist text := by
  obtain ⟨dropped, parts, -⟩ := exists_of_dropEndWhile test text
  conv => rhs; rw [parts]
  exact List.sublist_append_left _ _

theorem exists_of_trim (text : Text) :
    ∃ lead tail, text = lead ++ trim text ++ tail ∧ (∀ c ∈ lead, isBlank c = true) ∧
      ∀ c ∈ tail, isBlank c = true := by
  obtain ⟨tail, parts, blankTail⟩ := exists_of_dropEndWhile isBlank (text.dropWhile isBlank)
  refine ⟨text.takeWhile isBlank, tail, ?_, List.all_eq_true.mp List.all_takeWhile, blankTail⟩
  rw [trim, trimWhere, List.append_assoc, ← parts, List.takeWhile_append_dropWhile]

theorem ink_trim (text : Text) : ink (trim text) = ink text := by
  obtain ⟨lead, tail, parts, blankLead, blankTail⟩ := exists_of_trim text
  conv => rhs; rw [parts]
  rw [ink_append, ink_append, ink_of_blank blankLead, ink_of_blank blankTail, Nat.zero_add, Nat.add_zero]

theorem trim_append_blank (blank : ∀ c ∈ back, isBlank c = true) : trim (front ++ back) = trim front := by
  rw [trim, trim, trimWhere, trimWhere, List.dropWhile_append]
  split
  case isTrue empty =>
    have nothing : (back ++ []).dropWhile isBlank = [] := List.dropWhile_append_of_pos blank
    rw [List.append_nil] at nothing
    rw [List.isEmpty_iff.mp empty, nothing]
  case isFalse => exact dropEndWhile_append blank

theorem trim_blank_append (blank : ∀ c ∈ front, isBlank c = true) : trim (front ++ back) = trim back := by
  rw [trim, trim, trimWhere, trimWhere, List.dropWhile_append_of_pos blank]

theorem trim_cons_blank (blank : isBlank c = true) : trim (c :: text) = trim text :=
  @trim_blank_append [c] text (by simpa using blank)

/-- A character that is not blank stays, with what stands before and after it less the outer blanks. -/
theorem trim_append_ink (isInk : isBlank c = false) (front back : Text) :
    trim (front ++ c :: back) = front.dropWhile isBlank ++ c :: dropEndWhile isBlank back := by
  have started : (front ++ c :: back).dropWhile isBlank = front.dropWhile isBlank ++ c :: back := by
    rw [List.dropWhile_append]
    split
    case isTrue empty =>
      rw [List.isEmpty_iff.mp empty, List.dropWhile_cons_of_neg (by simp [isInk]), List.nil_append]
    case isFalse => rfl
  rw [trim, trimWhere, started, dropEndWhile_stop isInk]

theorem ink_dropWhile (text : Text) : ink (text.dropWhile isBlank) = ink text := by
  have blank : ∀ c ∈ text.takeWhile isBlank, isBlank c = true := List.all_eq_true.mp List.all_takeWhile
  conv => rhs; rw [← List.takeWhile_append_dropWhile (p := isBlank) (l := text)]
  rw [ink_append, ink_of_blank blank, Nat.zero_add]

/-- A trimmed text does not end with a blank. -/
theorem trim_trim (text : Text) : trim (trim text) = trim text := by
  obtain ⟨lead, tail, parts, blankLead, blankTail⟩ := exists_of_trim text
  conv => rhs; rw [parts]
  rw [trim_append_blank blankTail, trim_blank_append blankLead]

end Dropping

section Marks

theorem before_isPrefix (mark text : Text) : before mark text <+: text := by
  induction text with
  | nil => exact List.nil_prefix
  | cons c rest ih =>
    rw [before]
    split
    · exact List.nil_prefix
    · exact List.cons_prefix_cons.mpr ⟨rfl, ih⟩

/-- A mark that does not begin in a part of a text is looked for after it. -/
theorem before_append
    (absent : ∀ earlier later, front = earlier ++ later → later ≠ [] → ¬ mark <+: later ++ back) :
    before mark (front ++ back) = front ++ before mark back := by
  induction front with
  | nil => rfl
  | cons c rest ih =>
    have here := absent [] (c :: rest) rfl (List.cons_ne_nil c rest)
    rw [List.cons_append, before, if_neg (by rwa [List.isPrefixOf_iff_prefix]), ih]
    · rfl
    · intro earlier later parts filled
      exact absent (c :: earlier) later (by rw [parts]; rfl) filled

/-- A mark that no part of what follows a text can end begins within the text only if it ends there. -/
theorem prefix_of_prefix_append (apart : ∀ beyond, beyond ≠ [] → beyond <+: back → ¬ beyond <:+ mark)
    (starts : mark <+: front ++ back) : mark <+: front := by
  rcases List.prefix_or_prefix_of_prefix starts (List.prefix_append front back) with inside | ⟨beyond, rfl⟩
  · exact inside
  · rw [List.prefix_append_right_inj] at starts
    by_cases nothing : beyond = []
    · rw [nothing, List.append_nil]
    · exact absurd (List.suffix_append front beyond) (apart beyond nothing starts)

/-- A mark that is not found in a text does not begin at its end either if a character follows that is not
inside the mark. -/
theorem not_prefix_of_absent (absent : ¬ c :: mark <:+: front)
    (apart : ∀ other, back.head? = some other → other ∉ mark) (earlier later : Text)
    (parts : front = earlier ++ later) (filled : later ≠ []) : ¬ c :: mark <+: later ++ back := by
  subst parts
  intro starts
  obtain ⟨first, later, rfl⟩ := List.exists_cons_of_ne_nil filled
  rw [List.cons_append, List.cons_prefix_cons] at starts
  obtain ⟨rfl, starts⟩ := starts
  have inside : mark <+: later := by
    refine prefix_of_prefix_append (fun beyond filled begins ends => ?_) starts
    obtain ⟨other, beyond, rfl⟩ := List.exists_cons_of_ne_nil filled
    obtain ⟨rest, rfl⟩ := begins
    exact apart other rfl (ends.subset List.mem_cons_self)
  obtain ⟨rest, rfl⟩ := inside
  exact absent ⟨earlier, rest, by simp⟩

theorem before_append_of_absent (absent : ¬ c :: mark <:+: front)
    (apart : ∀ other, back.head? = some other → other ∉ mark) :
    before (c :: mark) (front ++ back) = front ++ before (c :: mark) back :=
  before_append (not_prefix_of_absent absent apart)

/-- Blanks at the end of a text do not change what comes before a mark that ends with no blank, unless they
are part of it. -/
theorem exists_before_append (ends : ∃ front c, mark = front ++ [c] ∧ isBlank c = false)
    (blank : ∀ c ∈ back, isBlank c = true) (front : Text) :
    ∃ more, before mark (front ++ back) = before mark front ++ more ∧ ∀ c ∈ more, isBlank c = true := by
  have apart : ∀ beyond, beyond ≠ [] → beyond <+: back → ¬ beyond <:+ mark := by
    rintro beyond filled begins isEnd
    obtain ⟨front, last, rfl, isInk⟩ := ends
    obtain ⟨earlier, last', rfl⟩ := (List.eq_nil_or_concat beyond).resolve_left filled
    rw [List.concat_eq_append] at begins isEnd
    obtain ⟨rest, parts⟩ := isEnd
    rw [← List.append_assoc] at parts
    obtain ⟨-, same⟩ := List.append_inj' parts rfl
    cases same
    have isBlank := blank last (begins.subset (by simp))
    rw [isInk] at isBlank
    cases isBlank
  induction front with
  | nil =>
    refine ⟨before mark back, ?_, fun c member => blank c ((before_isPrefix mark back).subset member)⟩
    rw [before, List.nil_append, List.nil_append]
  | cons c rest ih =>
    obtain ⟨more, parts, blankMore⟩ := ih
    rw [List.cons_append, before, before, ← List.cons_append]
    by_cases here : mark <+: c :: rest
    · have later : mark <+: c :: rest ++ back := here.trans (List.prefix_append _ _)
      rw [if_pos (List.isPrefixOf_iff_prefix.mpr here), if_pos (List.isPrefixOf_iff_prefix.mpr later)]
      exact ⟨[], rfl, nofun⟩
    · have later : ¬ mark <+: c :: rest ++ back := fun starts =>
        here (prefix_of_prefix_append apart starts)
      rw [if_neg (by rwa [List.isPrefixOf_iff_prefix]), if_neg (by rwa [List.isPrefixOf_iff_prefix]), parts]
      exact ⟨more, rfl, blankMore⟩

theorem before_cons_of_ne {other : Char} (apart : other ≠ c) (rest : Text) :
    before (c :: mark) (other :: rest) = other :: before (c :: mark) rest := by
  refine if_neg fun starts => apart ?_
  rw [List.isPrefixOf_iff_prefix] at starts
  exact (List.cons_prefix_cons.mp starts).1.symm

theorem before_append_of_not_mem (absent : c ∉ front) (back : Text) :
    before (c :: mark) (front ++ back) = front ++ before (c :: mark) back := by
  induction front with
  | nil => rfl
  | cons first front ih =>
    obtain ⟨apart, later⟩ := not_or.mp (List.mem_cons.not.mp absent)
    rw [List.cons_append, before_cons_of_ne (Ne.symm apart), ih later, List.cons_append]

theorem not_infix_of_blank (inked : ∃ c ∈ mark, isBlank c = false) (blank : ∀ c ∈ text, isBlank c = true) :
    ¬ mark <:+: text := by
  obtain ⟨c, member, isInk⟩ := inked
  intro inside
  have isBlank := blank c (inside.subset member)
  rw [isInk] at isBlank
  cases isBlank

/-- A mark does not begin where its first character does not stand. -/
theorem infix_append_of_not_mem (absent : c ∉ front) :
    c :: mark <:+: front ++ back ↔ c :: mark <:+: back := by
  induction front with
  | nil => rw [List.nil_append]
  | cons first front ih =>
    obtain ⟨apart, later⟩ := not_or.mp (List.mem_cons.not.mp absent)
    rw [List.cons_append, List.infix_cons_iff, List.cons_prefix_cons, ih later]
    exact or_iff_right fun starts => apart starts.1

/-- A mark occurs in a text for a first time, or not at all. -/
theorem exists_first_mark (filled : mark ≠ []) (text : Text) :
    ¬ mark <:+: text ∨ ∃ before after, text = before ++ (mark ++ after) ∧ ¬ mark <:+: before := by
  induction text with
  | nil => exact .inl fun inside => filled (List.infix_nil.mp inside)
  | cons c rest ih =>
    by_cases here : mark <+: c :: rest
    · obtain ⟨after, parts⟩ := here
      exact .inr ⟨[], after, parts.symm, fun inside => filled (List.infix_nil.mp inside)⟩
    · rcases ih with absent | ⟨before, after, rfl, first⟩
      · exact .inl fun inside => (List.infix_cons_iff.mp inside).elim here absent
      · refine .inr ⟨c :: before, after, rfl, fun inside => ?_⟩
        rcases List.infix_cons_iff.mp inside with starts | inside
        · exact here (starts.trans (List.prefix_append (c :: before) (mark ++ after)))
        · exact first inside

theorem before_eq_self (absent : ¬ mark <:+: text) : before mark text = text := by
  have whole := @before_append text [] mark
  simp only [List.append_nil] at whole
  rw [whole, before, List.append_nil]
  rintro earlier later rfl - ⟨rest, rfl⟩
  exact absent ⟨earlier, rest, by rw [List.append_assoc]⟩

/-- Where a mark occurs, it follows what is before it. -/
theorem before_append_mark (occurs : mark <:+: front) (back : Text) :
    before mark (front ++ back) ++ mark <+: front := by
  induction front with
  | nil =>
    rw [List.infix_nil.mp occurs]
    cases back <;> simp [before]
  | cons c rest ih =>
    rw [List.cons_append, before]
    by_cases here : mark <+: c :: rest
    · rw [if_pos, List.nil_append]
      · exact here
      · rw [List.isPrefixOf_iff_prefix]
        exact here.trans (List.prefix_append (c :: rest) back)
    · have later := (List.infix_cons_iff.mp occurs).resolve_left here
      split
      · have short : mark.length ≤ rest.length := later.length_le
        rename_i starts
        rw [List.isPrefixOf_iff_prefix] at starts
        exact absurd (List.prefix_of_prefix_length_le starts (List.prefix_append (c :: rest) back)
          (Nat.le_succ_of_le short)) here
      · exact List.cons_prefix_cons.mpr ⟨rfl, ih later⟩

end Marks

end DepAtlas.Text
