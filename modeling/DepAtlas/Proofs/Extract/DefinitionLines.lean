import DepAtlas.Proofs.Extract.Definitions
import DepAtlas.Proofs.Text.Search

/-!
The lines with which definitions under an indentation begin: what the pattern for them matches, and where it
matches before the line of a given definition.
-/

namespace DepAtlas.Extract

open Pattern
open Text (byteLength isIndent)
open Text.Cursor (between)

/-- A text begins with the definition of a name, up to its parameters. -/
def StartsDefinition (name text : Text) : Prop :=
  ∃ lead modifier gap blanks rest,
    text = lead ++ modifier ++ "def".toList ++ gap ++ name ++ blanks ++ '(' :: rest ∧
    (∀ c ∈ lead, isIndent c = true) ∧
    (modifier = [] ∨ ∃ after, modifier = "async".toList ++ after ∧ ∀ c ∈ after, isIndent c = true) ∧
    (gap ≠ [] ∧ ∀ c ∈ gap, isIndent c = true) ∧ ∀ c ∈ blanks, Text.isBlank c = true

/-- The candidate definitions of Python. -/
def definitionPattern : Pattern :=
  lineStart ++ indent ++ opt ("async" ++ indent1) ++ "def" ++ indent1 ++
    subject (one CharSet.identStart ++ many (CharSet.ident "")) ++ blanks ++ "("

theorem definitions_python : Language.python.grammar.definitions = [definitionPattern] := rfl

theorem anchored_definitionPattern : definitionPattern.anchored = true := rfl

theorem isIdent_of_identStart {c : Char} (starts : CharSet.identStart c = true) :
    CharSet.ident "" c = true := by
  simp only [CharSet.identStart, CharSet.ident, Char.isAlphanum, Bool.or_eq_true] at starts ⊢
  exact .inl (starts.imp_left .inl)

/-- What is matched as a definition is one. -/
theorem exists_of_mem_definitionPattern {way : Way} {front back : Text}
    (member : way ∈ definitionPattern.ways (between front back)) :
    ∃ lead modifier gap c more blanks rest,
      back = lead ++ modifier ++ "def".toList ++ gap ++ (c :: more) ++ blanks ++ '(' :: rest ∧
      (∀ c ∈ lead, isIndent c = true) ∧
      (modifier = [] ∨ ∃ after, modifier = "async".toList ++ after ∧ ∀ c ∈ after, isIndent c = true) ∧
      (gap ≠ [] ∧ ∀ c ∈ gap, isIndent c = true) ∧ (∀ c ∈ blanks, Text.isBlank c = true) ∧
      (CharSet.identStart c = true ∧ ∀ c ∈ more, CharSet.ident "" c = true) ∧
      way = ⟨between (front ++ (lead ++ modifier ++ "def".toList ++ gap ++ (c :: more) ++ blanks ++ ['(']))
          rest,
        [(.subject, ⟨between (front ++ (lead ++ modifier ++ "def".toList ++ gap))
            (c :: more ++ blanks ++ '(' :: rest),
          byteLength (front ++ (lead ++ modifier ++ "def".toList ++ gap ++ (c :: more)))⟩)]⟩ := by
  obtain ⟨w₇, isW₇, opens, isOpening, rfl⟩ := mem_ways_seq.mp member
  obtain ⟨w₆, isW₆, blank, isBlank, rfl⟩ := mem_ways_seq.mp isW₇
  obtain ⟨w₅, isW₅, named, isNamed, rfl⟩ := mem_ways_seq.mp isW₆
  obtain ⟨w₄, isW₄, spaced, isSpaced, rfl⟩ := mem_ways_seq.mp isW₅
  obtain ⟨w₃, isW₃, word, isWord, rfl⟩ := mem_ways_seq.mp isW₄
  obtain ⟨w₂, isW₂, modified, isModified, rfl⟩ := mem_ways_seq.mp isW₃
  obtain ⟨w₁, isW₁, indented, isIndented, rfl⟩ := mem_ways_seq.mp isW₂
  obtain rfl := eq_of_mem_lineStart isW₁
  obtain ⟨lead, rest, rfl, inLead, rfl⟩ := exists_of_mem_many isIndented
  obtain ⟨modifier, rest, rfl, inModifier, rfl⟩ : ∃ modifier rest', rest = modifier ++ rest' ∧
      (modifier = [] ∨ ∃ after, modifier = "async".toList ++ after ∧ ∀ c ∈ after, isIndent c = true) ∧
      modified = ⟨between (front ++ lead ++ modifier) rest', []⟩ := by
    rcases mem_ways_opt.mp isModified with present | rfl
    · obtain ⟨async, isAsync, after, isAfter, rfl⟩ := mem_ways_seq.mp present
      obtain ⟨rest, rfl, rfl⟩ := exists_of_mem_literal isAsync
      obtain ⟨run, rest, rfl, -, inside, rfl⟩ := exists_of_mem_many1 isAfter
      exact ⟨"async".toList ++ run, rest, by simp, .inr ⟨run, rfl, inside⟩, by simp [Way.followedBy]⟩
    · exact ⟨[], rest, rfl, .inl rfl, by simp [Way.followedBy]⟩
  obtain ⟨rest, rfl, rfl⟩ := exists_of_mem_literal isWord
  obtain ⟨gap, rest, rfl, filled, inGap, rfl⟩ := exists_of_mem_many1 isSpaced
  obtain ⟨inner, isInner, rfl⟩ := mem_ways_capture.mp isNamed
  obtain ⟨start, isStart, more, isMore, rfl⟩ := mem_ways_seq.mp isInner
  obtain ⟨c, rest, rfl, starts, rfl⟩ := exists_of_mem_one isStart
  obtain ⟨more, rest, rfl, inMore, rfl⟩ := exists_of_mem_many isMore
  obtain ⟨blanks, rest, rfl, inBlanks, rfl⟩ := exists_of_mem_many isBlank
  obtain ⟨rest, rfl, rfl⟩ := exists_of_mem_literal isOpening
  exact ⟨lead, modifier, gap, c, more, blanks, rest, by simp, inLead, inModifier, ⟨filled, inGap⟩,
    inBlanks, ⟨starts, inMore⟩, by simp [Way.followedBy]⟩

theorem text_name (front before name blanks back : Text) :
    (Text.Span.mk (between (front ++ before) (name ++ blanks ++ back))
      (byteLength (front ++ (before ++ name)))).text = name := by
  rw [← List.append_assoc front, List.append_assoc name]
  exact Text.Span.text_between (front ++ before) name (blanks ++ back)

/-- What precedes the name of a definition without modifiers. -/
def definitionWord : Text := ['d', 'e', 'f', ' ']

theorem isIndent_of_ident {c : Char} (isIdent : CharSet.ident "" c = true) : isIndent c = false := by
  have blank : isIndent c = true → Text.isBlank c = true := by
    intro indents
    rw [isIndent, Bool.or_eq_true, beq_iff_eq, beq_iff_eq] at indents
    rcases indents with rfl | rfl <;> decide
  cases indents : isIndent c with
  | false => rfl
  | true => exact absurd (blank indents) (by simp [CharSet.isBlank_of_ident isIdent])

/-- A definition without modifiers is matched up to its parameters. -/
theorem hitAt_definitionPattern {front lead : Text} {c : Char} {more : Text}
    (begins : front = [] ∨ ∃ lines, front = lines ++ ['\n']) (inLead : ∀ c ∈ lead, isIndent c = true)
    (starts : CharSet.identStart c = true) (ident : ∀ c ∈ more, CharSet.ident "" c = true) (rest : Text) :
    definitionPattern.hitAt (between front (lead ++ (definitionWord ++ (c :: more ++ '(' :: rest)))) = some
      ⟨⟨between front (lead ++ (definitionWord ++ (c :: more ++ '(' :: rest))),
          byteLength (front ++ lead ++ definitionWord ++ (c :: more) ++ ['('])⟩,
        { subject := some ⟨between (front ++ lead ++ definitionWord) (c :: more ++ '(' :: rest),
            byteLength (front ++ lead ++ definitionWord ++ (c :: more))⟩ }⟩ := by
  -- What follows a part decides what the part reads, so the parts are taken from the last one on.
  have opens : ("(" : Pattern).Begins '(' := begins_literal '(' []
  have openingRead : blanks.first (("(" : Pattern).first ends)
      (between (front ++ lead ++ definitionWord ++ (c :: more)) ('(' :: rest)) =
        some { stop := byteLength (front ++ lead ++ definitionWord ++ (c :: more) ++ ['(']) } := by
    rw [first_blanks_ink (by decide), first_literal]
    exact spell_append ['(']
  have openingShuns : Shuns (CharSet.ident "") (blanks.first (("(" : Pattern).first ends)) :=
    shuns_many (fun _ => CharSet.isBlank_of_ident) (opens.shuns (by decide))
  have nameRead : (subject (one CharSet.identStart ++ many (CharSet.ident ""))).first
      (blanks.first (("(" : Pattern).first ends))
      (between (front ++ lead ++ definitionWord) (c :: more ++ '(' :: rest)) =
        some (Completion.remember
          { stop := byteLength (front ++ lead ++ definitionWord ++ (c :: more) ++ ['(']) } .subject
          ⟨between (front ++ lead ++ definitionWord) (c :: more ++ '(' :: rest),
            byteLength (front ++ lead ++ definitionWord ++ (c :: more))⟩) := by
    refine (first_capture_between ?_).trans ?_
    · have after : ∀ c, ('(' :: rest).head? = some c → CharSet.ident "" c = false := by
        rintro _ ⟨⟩
        decide
      rw [first_append, List.cons_append, first_one_between, if_pos starts,
        first_many_run (openingShuns.map fun stop => (·.close stop.offset)) ident after, List.append_assoc,
        List.singleton_append]
      rfl
    · rw [openingRead]
      rfl
  have wordRead (next : Text.Cursor → Option Completion) :
      ("def" : Pattern).first (indent1.first next)
          (between (front ++ lead) (definitionWord ++ (c :: more ++ '(' :: rest))) =
        next (between (front ++ lead ++ definitionWord) (c :: more ++ '(' :: rest)) := by
    have isInk := isIndent_of_ident (isIdent_of_identStart starts)
    rw [first_literal]
    refine (spell_append ['d', 'e', 'f']).trans ?_
    rw [indent1, many1, first_seq, first_one_between, if_pos (by decide), List.cons_append,
      first_many_stay (by rintro _ ⟨⟩; exact isInk)]
    simp [definitionWord]
  have async : ("async" ++ indent1 : Pattern).Begins 'a' := (begins_literal 'a' _).append _
  have word : ("def" : Pattern).Begins 'd' := begins_literal 'd' _
  have leadRead (next : Text.Cursor → Option Completion) :
      indent.first ((opt ("async" ++ indent1)).first (("def" : Pattern).first next))
          (between front (lead ++ (definitionWord ++ (c :: more ++ '(' :: rest)))) =
        ("def" : Pattern).first next
          (between (front ++ lead) (definitionWord ++ (c :: more ++ '(' :: rest))) := by
    refine (first_many_run ((async.shuns (by decide)).opt (word.shuns (by decide))) inLead ?_).trans ?_
    · rintro _ ⟨⟩
      decide
    · exact first_opt_skip async (by decide)
  have read : definitionPattern.first ends
      (between front (lead ++ (definitionWord ++ (c :: more ++ '(' :: rest)))) =
        some (Completion.remember
          { stop := byteLength (front ++ lead ++ definitionWord ++ (c :: more) ++ ['(']) } .subject
          ⟨between (front ++ lead ++ definitionWord) (c :: more ++ '(' :: rest),
            byteLength (front ++ lead ++ definitionWord ++ (c :: more))⟩) := by
    simp only [definitionPattern, first_append]
    refine (first_lineStart.trans (if_pos ((Text.Cursor.atLineStart_between _ _).mpr begins))).trans ?_
    exact (leadRead _).trans ((wordRead _).trans nameRead)
  exact congrArg (Option.map _) read

/-- A definition stands on one line up to its name. -/
theorem lineless_definition {lead modifier gap more : Text} {c : Char}
    (inLead : ∀ c ∈ lead, isIndent c = true)
    (inModifier : modifier = [] ∨
      ∃ after, modifier = "async".toList ++ after ∧ ∀ c ∈ after, isIndent c = true)
    (inGap : ∀ c ∈ gap, isIndent c = true) (starts : CharSet.identStart c = true)
    (ident : ∀ c ∈ more, CharSet.ident "" c = true) :
    '\n' ∉ lead ++ modifier ++ "def".toList ++ gap ++ (c :: more) := by
  have indents {run : Text} (inside : ∀ c ∈ run, isIndent c = true) : '\n' ∉ run := fun member =>
    absurd (inside _ member) (by decide)
  have named : '\n' ∉ c :: more := by
    have isName : ∀ other ∈ c :: more, CharSet.ident "" other = true :=
      List.forall_mem_cons.mpr ⟨isIdent_of_identStart starts, ident⟩
    exact fun member => absurd (isName _ member) (by decide)
  have modified : '\n' ∉ modifier := by
    rcases inModifier with rfl | ⟨run, rfl, inRun⟩
    · exact List.not_mem_nil
    · exact List.not_mem_append (by decide) (indents inRun)
  exact List.not_mem_append (List.not_mem_append (List.not_mem_append
    (List.not_mem_append (indents inLead) modified) (by decide)) (indents inGap)) named

/-- A match before a definition ends before its line, and defines the name there. -/
theorem of_earlier_hit {front before after lead back : Text} {other : Hit}
    (begins : front = [] ∨ ∃ lines, front = lines ++ ['\n']) (inLead : ∀ c ∈ lead, isIndent c = true)
    (parts : front = before ++ after) (filled : after ≠ [])
    (isHit : definitionPattern.hitAt (between before (after ++ (lead ++ 'd' :: back))) = some other) :
    other.whole.stop ≤ byteLength front ∧ ∃ name, StartsDefinition name after ∧
      other.captures.subject.map (·.toString) = some (String.ofList name) := by
  obtain ⟨lines, isAfter⟩ : ∃ lines, after = lines ++ ['\n'] := by
    rcases begins with rfl | ⟨lines, rfl⟩
    · exact absurd (List.append_eq_nil_iff.mp parts.symm).2 filled
    · obtain ⟨lines', last, rfl⟩ := (List.eq_nil_or_concat after).resolve_left filled
      rw [List.concat_eq_append, ← List.append_assoc] at parts
      obtain ⟨-, same⟩ := List.append_inj' parts rfl
      exact ⟨lines', by rw [List.concat_eq_append, same]⟩
  rw [hitAt_eq] at isHit
  obtain ⟨way, isFirst, rfl⟩ := Option.map_eq_some_iff.mp isHit
  obtain ⟨lead', modifier, gap, c, more, blanks, rest, whole, inLead', inModifier, inGap, inBlanks,
    ⟨starts, ident⟩, rfl⟩ := exists_of_mem_definitionPattern (List.mem_of_head? isFirst)
  obtain ⟨read, isRead⟩ : ∃ read, read = lead' ++ modifier ++ "def".toList ++ gap ++ (c :: more) := ⟨_, rfl⟩
  -- The line ends after the definition was read, and only blanks may stand before the parenthesis.
  have onLine : '\n' ∉ read := isRead ▸ lineless_definition inLead' inModifier inGap.2 starts ident
  obtain ⟨inner, inLines, inRest⟩ :
      ∃ inner, lines = read ++ inner ∧ blanks ++ '(' :: rest = inner ++ '\n' :: (lead ++ 'd' :: back) := by
    refine Text.exists_of_append_eq onLine ?_
    rw [isRead, ← List.append_assoc, ← whole, isAfter]
    simp
  obtain ⟨later, inInner⟩ : ∃ later, inner = blanks ++ '(' :: later := by
    have blank : 'd' ∉ blanks := fun member => absurd (inBlanks _ member) (by decide)
    have split : blanks ++ '(' :: rest = (inner ++ '\n' :: lead) ++ 'd' :: back := by
      rw [inRest, List.append_assoc, List.cons_append]
    obtain ⟨opened, isOpened, begun⟩ := Text.exists_of_append_eq blank split
    obtain ⟨opened, rfl⟩ : ∃ more, opened = '(' :: more := by
      cases opened with
      | nil => exact absurd (List.cons.inj begun).1 (by decide)
      | cons first opened => exact ⟨opened, by rw [(List.cons.inj begun).1]⟩
    have closed : '(' ∉ '\n' :: lead := by
      rw [List.mem_cons]
      rintro (same | member)
      · exact absurd same (by decide)
      · exact absurd (inLead _ member) (by decide)
    exact Text.exists_of_eq_append closed isOpened
  have isWhole : after = read ++ blanks ++ '(' :: (later ++ ['\n']) := by
    rw [isAfter, inLines, inInner]
    simp
  refine ⟨?_, c :: more, ⟨lead', modifier, gap, blanks, later ++ ['\n'], ?_, inLead', inModifier, inGap,
    inBlanks⟩, ?_⟩
  · change byteLength
      (before ++ (lead' ++ modifier ++ "def".toList ++ gap ++ (c :: more) ++ blanks ++ ['('])) ≤ _
    rw [← isRead, parts, isWhole]
    simp only [Text.byteLength_append, byteLength]
    omega
  · rw [isWhole, isRead]
  · exact congrArg (fun name => some (String.ofList name)) (text_name before _ (c :: more) blanks _)

end DepAtlas.Extract
