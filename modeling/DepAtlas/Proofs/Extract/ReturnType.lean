import DepAtlas.Extract.Method
import DepAtlas.Proofs.Text.Bytes
import DepAtlas.Proofs.Text.Cutting

/-!
The return type that is read off the text between a parameter list and a body. It is what follows the first
arrow, or a `:` in front, and it is cut at the first ` where` or `=>`. So a type is read as it is written
unless one of these marks stands in it, or goes with something that does not belong to the type.
-/

namespace DepAtlas

namespace Text

variable {text front back mark : Text}

theorem find?_eq_none (filled : mark ≠ []) (absent : ¬ mark <:+: text) : find? mark text = none := by
  induction text with
  | nil => exact if_neg (by simpa using filled)
  | cons c rest ih =>
    obtain ⟨notHere, notLater⟩ := not_or.mp (List.infix_cons_iff.not.mp absent)
    rw [find?, if_neg (by rwa [List.isPrefixOf_iff_prefix]), ih notLater]
    rfl

theorem find?_first (absent : ∀ earlier later, front = earlier ++ later → later ≠ [] →
    ¬ mark <+: later ++ (mark ++ back)) : find? mark (front ++ (mark ++ back)) = some (byteLength front) := by
  induction front with
  | nil =>
    have here : mark.isPrefixOf (mark ++ back) = true :=
      List.isPrefixOf_iff_prefix.mpr (List.prefix_append mark back)
    rw [List.nil_append]
    cases whole : mark ++ back with
    | nil => rw [find?, (List.append_eq_nil_iff.mp whole).1]; rfl
    | cons c rest =>
      rw [whole] at here
      rw [find?, if_pos here]
      rfl
  | cons c rest ih =>
    have notHere := absent [] (c :: rest) rfl (List.cons_ne_nil c rest)
    rw [List.cons_append, find?, if_neg (by rwa [List.isPrefixOf_iff_prefix]), ih]
    · exact congrArg some (Nat.add_comm _ _)
    · intro earlier later parts filled
      exact absent (c :: earlier) later (by rw [parts]; rfl) filled

end Text

namespace Extract

open Text (trim before dropEndWhile isBlank ink byteLength)

variable {front back text type gap comment : Text} {c : Char}

/-- Begins a clause on type parameters. -/
def clauseMark : Text := [' ', 'w', 'h', 'e', 'r', 'e']

/-- Begins a body that is an expression. -/
def bodyMark : Text := ['=', '>']

/-- Begins a return type. -/
def arrow : Text := ['-', '>']

/-- A written type up to the mark of a body, without blanks around it and without a `:` at its end. -/
def bared (written : Text) : Text :=
  trim (dropEndWhile (· == ':') (trim (before bodyMark written)))

/-- What is read of a written type. -/
def cleaned (written : Text) : Text :=
  bared (before clauseMark written)

/-- A text as a type, unless it is empty. -/
def typeNamed? : Text → Option String
  | [] => none
  | name => some (String.ofList name)

theorem typeNamed?_eq_some_iff {name : Text} (filled : name ≠ []) :
    typeNamed? text = some (String.ofList name) ↔ text = name := by
  cases text with
  | nil => exact iff_of_false nofun (Ne.symm filled)
  | cons c rest =>
    change some (String.ofList (c :: rest)) = _ ↔ _
    rw [Option.some_inj, String.ofList_inj]

theorem typeNamed?_eq_none_iff : typeNamed? text = none ↔ text = [] := by
  cases text with
  | nil => exact iff_of_true rfl rfl
  | cons => exact iff_of_false nofun nofun

theorem cleaned_append_blank (blank : ∀ c ∈ back, isBlank c = true) :
    cleaned (front ++ back) = cleaned front := by
  have clauseEnds : ∃ start c, clauseMark = start ++ [c] ∧ isBlank c = false :=
    ⟨[' ', 'w', 'h', 'e', 'r'], 'e', rfl, by decide⟩
  have bodyEnds : ∃ start c, bodyMark = start ++ [c] ∧ isBlank c = false := ⟨['='], '>', rfl, by decide⟩
  obtain ⟨more, parts, blankMore⟩ := Text.exists_before_append clauseEnds blank front
  obtain ⟨others, parts', blankOthers⟩ :=
    Text.exists_before_append bodyEnds blankMore (before clauseMark front)
  rw [cleaned, cleaned, parts, bared, bared, parts', Text.trim_append_blank blankOthers]

/-- Where a type is written after a parameter list. -/
def written? (tail : Text) : Option Text :=
  match Text.find? arrow tail with
  | some place => some (Text.dropBytes (place + 2) tail)
  | none =>
    if tail.head? == some ':' then some (tail.drop 1)
    else if "throws".toList.isPrefixOf tail then none
    else some tail

theorem tailType?_eq (tail : Text) :
    tailType? tail = (written? (trim tail)).bind fun written => typeNamed? (cleaned written) := rfl

/-- After an arrow the rest is the type. -/
theorem tailType?_arrow (first : ¬ arrow <:+: front) (back : Text) :
    tailType? (front ++ (arrow ++ back)) = typeNamed? (cleaned back) := by
  obtain ⟨dropped, parts, blank⟩ := Text.exists_of_dropEndWhile isBlank back
  have trimmed : trim (front ++ (arrow ++ back)) =
      front.dropWhile isBlank ++ (arrow ++ dropEndWhile isBlank back) := by
    change trim (front ++ '-' :: ('>' :: back)) = _
    rw [Text.trim_append_ink (by decide), Text.dropEndWhile_cons (by decide)]
    rfl
  have absent : ¬ arrow <:+: front.dropWhile isBlank := fun inside =>
    first (inside.trans (List.dropWhile_suffix isBlank).isInfix)
  have found : Text.find? arrow (front.dropWhile isBlank ++ (arrow ++ dropEndWhile isBlank back)) =
      some (byteLength (front.dropWhile isBlank)) := by
    refine Text.find?_first (Text.not_prefix_of_absent absent ?_)
    rintro _ ⟨⟩
    decide
  have cut : Text.dropBytes (byteLength (front.dropWhile isBlank) + 2)
      (front.dropWhile isBlank ++ (arrow ++ dropEndWhile isBlank back)) = dropEndWhile isBlank back := by
    have whole := Text.dropBytes_byteLength_append (front.dropWhile isBlank ++ arrow)
      (dropEndWhile isBlank back)
    rwa [Text.byteLength_append, List.append_assoc] at whole
  have same : cleaned (dropEndWhile isBlank back) = cleaned back := by
    conv => rhs; rw [parts]
    rw [cleaned_append_blank blank]
  have isWritten : written? (front.dropWhile isBlank ++ (arrow ++ dropEndWhile isBlank back)) =
      some (dropEndWhile isBlank back) := by
    rw [written?, found]
    exact congrArg some cut
  rw [tailType?_eq, trimmed, isWritten, Option.bind_some, same]

/-- After a `:` the rest is the type if there is no arrow. -/
theorem tailType?_colon (plain : ¬ arrow <:+: back) :
    tailType? (':' :: back) = typeNamed? (cleaned back) := by
  obtain ⟨dropped, parts, blank⟩ := Text.exists_of_dropEndWhile isBlank back
  have trimmed : trim (':' :: back) = ':' :: dropEndWhile isBlank back :=
    @Text.trim_of_ink [] ':' nofun (by decide) back
  have absent : Text.find? arrow (':' :: dropEndWhile isBlank back) = none := by
    apply Text.find?_eq_none (List.cons_ne_nil _ _)
    intro inside
    have later : arrow <:+: dropEndWhile isBlank back :=
      (List.infix_cons_iff.mp inside).resolve_left fun starts =>
        absurd (List.cons_prefix_cons.mp starts).1 (by decide)
    apply plain
    rw [parts]
    exact later.trans (List.prefix_append _ _).isInfix
  have same : cleaned (dropEndWhile isBlank back) = cleaned back := by
    conv => rhs; rw [parts]
    rw [cleaned_append_blank blank]
  have isWritten : written? (':' :: dropEndWhile isBlank back) = some (dropEndWhile isBlank back) := by
    rw [written?, absent]
    rfl
  rw [tailType?_eq, trimmed, isWritten, Option.bind_some, same]

section Cleaning

theorem ink_bared_le (written : Text) : ink (bared written) ≤ ink written := by
  have shorter := Text.ink_le_of_sublist (Text.before_isPrefix bodyMark written).sublist
  have shortest := Text.ink_le_of_sublist
    (Text.dropEndWhile_sublist (· == ':') (trim (before bodyMark written)))
  rw [Text.ink_trim] at shortest
  rw [bared, Text.ink_trim]
  exact Nat.le_trans shortest shorter

theorem ink_cleaned_le (written : Text) : ink (cleaned written) ≤ ink written :=
  Nat.le_trans (ink_bared_le _) (Text.ink_le_of_sublist (Text.before_isPrefix clauseMark written).sublist)

/-- A type that holds the mark of a clause is cut. -/
theorem cleaned_ne_of_cut (cut : clauseMark <:+: front) (back : Text) :
    cleaned (front ++ back) ≠ trim front := by
  have shorter := Text.ink_le_of_sublist (Text.before_append_mark cut back).sublist
  have marked : ink clauseMark = 5 := by decide
  have rest : ink (cleaned (front ++ back)) ≤ ink (before clauseMark (front ++ back)) := ink_bared_le _
  rw [Text.ink_append, marked] at shorter
  intro same
  rw [same, Text.ink_trim] at rest
  omega

/-- Up to a character that is kept, everything is kept but blanks. -/
theorem lt_ink_cleaned (isInk : isBlank c = false) (apart : c ≠ ':')
    (kept : before bodyMark (before clauseMark text) = front ++ c :: back) :
    ink front < ink (cleaned text) := by
  rw [cleaned, bared, kept, Text.trim_append_ink isInk, Text.dropEndWhile_stop (by simpa using apart),
    Text.ink_trim, Text.ink_append, Text.ink_dropWhile, Text.ink_cons_ink isInk]
  omega

variable (bodyless : ¬ bodyMark <:+: type)

include bodyless

theorem bodyless_cons_space : ¬ bodyMark <:+: ' ' :: type := fun inside =>
  bodyless ((List.infix_cons_iff.mp inside).resolve_left fun starts =>
    absurd (List.cons_prefix_cons.mp starts).1 (by decide))

theorem bared_eq_trim_iff : bared type = trim type ↔ (trim type).getLast? ≠ some ':' := by
  rw [bared, Text.before_eq_self bodyless]
  constructor
  · intro same last
    obtain ⟨front, parts⟩ := List.getLast?_eq_some_iff.mp last
    have dropped : dropEndWhile (· == ':') (front ++ [':']) = dropEndWhile (· == ':') front :=
      Text.dropEndWhile_append (by simp)
    have shorter := Text.ink_le_of_sublist (Text.dropEndWhile_sublist (· == ':') front)
    have whole := congrArg ink same
    rw [Text.ink_trim, parts, dropped, Text.ink_append] at whole
    have single : ink [':'] = 1 := by decide
    omega
  · intro last
    rw [Text.dropEndWhile_eq_self, Text.trim_trim]
    intro c isLast
    rw [beq_eq_false_iff_ne]
    rintro rfl
    exact last isLast

/-- A type on its own is read as it is written unless the mark of a clause stands in it, or a `:` at its
end. -/
theorem cleaned_eq_trim_iff :
    cleaned type = trim type ↔ ¬ clauseMark <:+: type ∧ (trim type).getLast? ≠ some ':' := by
  by_cases cut : clauseMark <:+: type
  · have differ := cleaned_ne_of_cut cut []
    rw [List.append_nil] at differ
    exact iff_of_false differ fun both => both.1 cut
  · rw [cleaned, Text.before_eq_self cut, bared_eq_trim_iff bodyless]
    exact (and_iff_right cut).symm

/-- Marks that do not stand in a type do not begin in it either if a character follows that is not inside
one of them. -/
theorem before_marks_append (uncut : ¬ clauseMark <:+: type)
    (apart : ∀ c, back.head? = some c → c ∉ clauseMark.tail ∧ c ∉ bodyMark.tail) :
    before bodyMark (before clauseMark (type ++ back)) =
      type ++ before bodyMark (before clauseMark back) := by
  have inClause : before clauseMark (type ++ back) = type ++ before clauseMark back :=
    Text.before_append_of_absent uncut fun c first => (apart c first).1
  have inBody : before bodyMark (type ++ before clauseMark back) =
      type ++ before bodyMark (before clauseMark back) := by
    refine Text.before_append_of_absent bodyless fun c first => (apart c ?_).2
    obtain ⟨rest, parts⟩ := Text.before_isPrefix clauseMark back
    rw [← parts, List.head?_append, first]
    rfl
  rw [inClause, inBody]

omit bodyless in
theorem apart_of_blank (blank : isBlank c = true) : c ∉ clauseMark.tail ∧ c ∉ bodyMark.tail := by
  have inked : ∀ c ∈ clauseMark.tail ++ bodyMark.tail, isBlank c = false :=
    List.all_iff_forall_prop.mp (by decide)
  have absent : c ∉ clauseMark.tail ++ bodyMark.tail := fun member => by
    rw [inked c member] at blank
    cases blank
  exact not_or.mp (List.mem_append.not.mp absent)

omit bodyless in
theorem apart_of_head_append (blank : ∀ c ∈ gap, isBlank c = true)
    (apart : ∀ c, back.head? = some c → c ∉ clauseMark.tail ∧ c ∉ bodyMark.tail) :
    ∀ c, (gap ++ back).head? = some c → c ∉ clauseMark.tail ∧ c ∉ bodyMark.tail := by
  cases gap with
  | nil => exact apart
  | cons first gap =>
    rintro _ ⟨⟩
    exact apart_of_blank (blank first List.mem_cons_self)

omit bodyless in
theorem before_marks_append_blank (blank : ∀ c ∈ gap, isBlank c = true)
    (apart : ∀ c, back.head? = some c → c ∉ clauseMark.tail ∧ c ∉ bodyMark.tail) :
    before bodyMark (before clauseMark (gap ++ back)) = gap ++ before bodyMark (before clauseMark back) :=
  before_marks_append (Text.not_infix_of_blank ⟨'=', by decide, by decide⟩ blank)
    (Text.not_infix_of_blank ⟨'w', by decide, by decide⟩ blank) apart

omit bodyless in
theorem before_marks_cons (notClause : c ≠ ' ') (notBody : c ≠ '=') (rest : Text) :
    before bodyMark (before clauseMark (c :: rest)) = c :: before bodyMark (before clauseMark rest) := by
  rw [clauseMark, Text.before_cons_of_ne notClause, bodyMark, Text.before_cons_of_ne notBody]

omit bodyless in
/-- A clause after a space is left out. -/
theorem cleaned_space_clause (uncut : ¬ clauseMark <:+: type) (blank : ∀ c ∈ gap, isBlank c = true)
    (bounds : Text) : cleaned (type ++ (gap ++ (clauseMark ++ bounds))) = cleaned type := by
  have noClause : ¬ clauseMark <:+: gap := Text.not_infix_of_blank ⟨'w', by decide, by decide⟩ blank
  have read (back : Text) (after : ∀ c, back.head? = some c → c ∉ clauseMark.tail) :
      before clauseMark (type ++ (gap ++ back)) = type ++ (gap ++ before clauseMark back) := by
    have inner : before clauseMark (gap ++ back) = gap ++ before clauseMark back :=
      Text.before_append_of_absent noClause after
    rw [← inner]
    refine Text.before_append_of_absent uncut fun c first => ?_
    cases gap with
    | nil => exact after c first
    | cons head gap =>
      cases first
      exact (apart_of_blank (blank c List.mem_cons_self)).1
  have marked := read (clauseMark ++ bounds) fun c first => by
    cases first
    decide
  have alone := read [] nofun
  have ends : before clauseMark (clauseMark ++ bounds) = before clauseMark [] :=
    if_pos (List.isPrefixOf_iff_prefix.mpr (List.prefix_append clauseMark bounds))
  rw [cleaned, marked, ends, ← alone, ← cleaned, List.append_nil, cleaned_append_blank blank]

/-- A clause after another blank is taken for a part of the type. -/
theorem lt_ink_cleaned_clause (uncut : ¬ clauseMark <:+: type) (blank : ∀ c ∈ gap, isBlank c = true)
    (isBlankLast : isBlank c = true) (noSpace : c ≠ ' ') (bounds : Text) :
    ink type < ink (cleaned (type ++ (gap ++ c :: (clauseMark.tail ++ bounds)))) := by
  have apart : ∀ other, (c :: (clauseMark.tail ++ bounds)).head? = some other →
      other ∉ clauseMark.tail ∧ other ∉ bodyMark.tail := by
    rintro _ ⟨⟩
    exact apart_of_blank isBlankLast
  have notBody : c ≠ '=' := by
    rintro rfl
    exact absurd isBlankLast (by decide)
  have clause : before bodyMark (before clauseMark (c :: (clauseMark.tail ++ bounds))) =
      c :: 'w' :: before bodyMark (before clauseMark (clauseMark.tail.tail ++ bounds)) := by
    change before bodyMark (before clauseMark (c :: 'w' :: (clauseMark.tail.tail ++ bounds))) = _
    rw [before_marks_cons noSpace notBody, before_marks_cons (by decide) (by decide)]
  have kept : before bodyMark (before clauseMark (type ++ (gap ++ c :: (clauseMark.tail ++ bounds)))) =
      (type ++ (gap ++ [c])) ++
        'w' :: before bodyMark (before clauseMark (clauseMark.tail.tail ++ bounds)) := by
    rw [before_marks_append bodyless uncut (apart_of_head_append blank apart),
      before_marks_append_blank blank apart, clause]
    simp
  have longer := lt_ink_cleaned (by decide) (by decide) kept
  rw [Text.ink_append] at longer
  omega

/-- A type is read as it is written before a clause if neither ends it too early: the mark of a clause in
the type, a `:` at its end, or another blank than a space before the clause. -/
theorem cleaned_clause_iff (blank : ∀ c ∈ gap, isBlank c = true) (filled : gap ≠ []) (bounds : Text) :
    cleaned (type ++ (gap ++ (clauseMark.tail ++ bounds))) = trim type ↔
      (¬ clauseMark <:+: type ∧ (trim type).getLast? ≠ some ':') ∧ gap.getLast? = some ' ' := by
  by_cases cut : clauseMark <:+: type
  · exact iff_of_false (cleaned_ne_of_cut cut _) fun all => all.1.1 cut
  obtain ⟨blanks, last, rfl⟩ := (List.eq_nil_or_concat gap).resolve_left filled
  rw [List.concat_eq_append] at blank ⊢
  obtain ⟨blankFront, blankLast⟩ := List.forall_mem_append.mp blank
  rw [List.append_assoc, List.singleton_append, List.getLast?_concat]
  by_cases space : last = ' '
  · subst space
    have same : cleaned (type ++ (blanks ++ ' ' :: (clauseMark.tail ++ bounds))) = cleaned type :=
      cleaned_space_clause cut blankFront bounds
    rw [same, cleaned_eq_trim_iff bodyless]
    exact (and_iff_left rfl).symm
  · have longer := lt_ink_cleaned_clause bodyless cut blankFront
      (blankLast last (List.mem_singleton_self last)) space bounds
    refine iff_of_false (fun same => ?_) fun all => space (Option.some.inj all.2)
    rw [same, Text.ink_trim] at longer
    exact Nat.lt_irrefl _ longer

/-- A `:` at the end of a line is not taken for a part of the type. -/
theorem cleaned_colon_iff (plain : ':' ∉ type) (blank : ∀ c ∈ gap, isBlank c = true) :
    cleaned (type ++ ':' :: gap) = trim type ↔ ¬ clauseMark <:+: type := by
  by_cases cut : clauseMark <:+: type
  · exact iff_of_false (cleaned_ne_of_cut cut _) fun uncut => uncut cut
  refine iff_of_true ?_ cut
  have apart : ∀ c, [':'].head? = some c → c ∉ clauseMark.tail ∧ c ∉ bodyMark.tail := by
    rintro _ ⟨⟩
    decide
  have kept : before bodyMark (before clauseMark (type ++ [':'])) = type ++ [':'] :=
    before_marks_append bodyless cut apart
  have stays : dropEndWhile (· == ':') (type.dropWhile isBlank) = type.dropWhile isBlank := by
    refine Text.dropEndWhile_eq_self fun c last => ?_
    rw [beq_eq_false_iff_ne]
    rintro rfl
    exact plain ((List.dropWhile_sublist isBlank).subset (List.mem_of_getLast? last))
  have bare : trim (type.dropWhile isBlank) = trim type := by
    have blankFront : ∀ c ∈ type.takeWhile isBlank, isBlank c = true :=
      List.all_eq_true.mp List.all_takeWhile
    have whole := @Text.trim_blank_append _ (type.dropWhile isBlank) blankFront
    rwa [List.takeWhile_append_dropWhile, eq_comm] at whole
  have colon : dropEndWhile (· == ':') (type.dropWhile isBlank ++ [':']) = type.dropWhile isBlank := by
    rw [Text.dropEndWhile_append (by simp), stays]
  have split : type ++ ':' :: gap = (type ++ [':']) ++ gap := by simp
  rw [split, cleaned_append_blank blank, cleaned, bared, kept, Text.trim_append_ink (by decide)]
  exact (congrArg trim colon).trans bare

/-- A comment after a `:` is taken for a part of the type, unless the type itself is cut. -/
theorem cleaned_comment_ne (blank : ∀ c ∈ gap, isBlank c = true) (comment : Text) :
    cleaned (type ++ ':' :: (gap ++ '#' :: comment)) ≠ trim type := by
  by_cases cut : clauseMark <:+: type
  · exact cleaned_ne_of_cut cut _
  have apart : ∀ c, ('#' :: comment).head? = some c → c ∉ clauseMark.tail ∧ c ∉ bodyMark.tail := by
    rintro _ ⟨⟩
    decide
  have apartColon : ∀ c, (':' :: (gap ++ '#' :: comment)).head? = some c →
      c ∉ clauseMark.tail ∧ c ∉ bodyMark.tail := by
    rintro _ ⟨⟩
    decide
  have kept : before bodyMark (before clauseMark (type ++ ':' :: (gap ++ '#' :: comment))) =
      (type ++ ':' :: gap) ++ '#' :: before bodyMark (before clauseMark comment) := by
    rw [before_marks_append bodyless cut apartColon, before_marks_cons (by decide) (by decide),
      before_marks_append_blank blank apart, before_marks_cons (by decide) (by decide)]
    simp
  have longer := lt_ink_cleaned (by decide) (by decide) kept
  rw [Text.ink_append] at longer
  intro same
  rw [same, Text.ink_trim] at longer
  omega

omit bodyless in
/-- A comment alone is taken for a type. -/
theorem cleaned_comment_ne_nil (blank : ∀ c ∈ gap, isBlank c = true) (comment : Text) :
    cleaned (gap ++ '#' :: comment) ≠ [] := by
  have kept : before bodyMark (before clauseMark (gap ++ '#' :: comment)) =
      gap ++ '#' :: before bodyMark (before clauseMark comment) := by
    rw [before_marks_append_blank blank, before_marks_cons (by decide) (by decide)]
    rintro _ ⟨⟩
    decide
  have longer := lt_ink_cleaned (by decide) (by decide) kept
  intro same
  rw [same] at longer
  exact Nat.not_lt_zero _ longer

omit bodyless in
/-- A comment after a `:` is taken for a type, unless nothing is left of what follows an arrow in it. -/
theorem tailType?_comment_eq_none_iff (blank : ∀ c ∈ gap, isBlank c = true) (comment : Text) :
    tailType? (':' :: (gap ++ '#' :: comment)) = none ↔
      ∃ front back, comment = front ++ (arrow ++ back) ∧ ¬ arrow <:+: front ∧ cleaned back = [] := by
  have dash : '-' ∉ ':' :: (gap ++ ['#']) := by
    rw [List.mem_cons, List.mem_append, List.mem_singleton]
    rintro (same | member | same)
    · exact absurd same (by decide)
    · exact absurd (blank _ member) (by decide)
    · exact absurd same (by decide)
  have absent {front : Text} (first : ¬ arrow <:+: front) : ¬ arrow <:+: ':' :: (gap ++ '#' :: front) := by
    have unmarked := (Text.infix_append_of_not_mem dash).not.mpr first
    rwa [List.cons_append, List.append_assoc, List.singleton_append] at unmarked
  have read (front back : Text) (first : ¬ arrow <:+: front) :
      tailType? (':' :: (gap ++ '#' :: (front ++ (arrow ++ back)))) = typeNamed? (cleaned back) := by
    have found := tailType?_arrow (absent first) back
    rwa [List.cons_append, List.append_assoc, List.cons_append] at found
  constructor
  · intro returns
    have filled : arrow ≠ [] := by decide
    rcases Text.exists_first_mark filled comment with none | ⟨front, back, rfl, first⟩
    · have unmarked : ¬ arrow <:+: gap ++ '#' :: comment := fun inside =>
        absent none (List.infix_cons inside)
      rw [tailType?_colon unmarked, typeNamed?_eq_none_iff] at returns
      exact absurd returns (cleaned_comment_ne_nil blank comment)
    · rw [read front back first, typeNamed?_eq_none_iff] at returns
      exact ⟨front, back, rfl, first, returns⟩
  · rintro ⟨front, back, rfl, first, nothing⟩
    exact (read front back first).trans (typeNamed?_eq_none_iff.mpr nothing)

end Cleaning

end Extract

end DepAtlas
