import DepAtlas.Proofs.Extract.ImportLines

/-!
Import blocks, in a source without other imports.

The pattern of a single import does not match a block, and that of a block matches at most one stretch of the
source: from the word of the import to the first closing parenthesis after it. The paths on the lines of that
stretch are reported in order, each with the number of its line.
-/

namespace DepAtlas.Extract

open Pattern
open Text (byteLength isBlank LineIndex)
open Text.Cursor (between)

section Candidate

/-- The import blocks of Go. -/
def blockPattern : Pattern :=
  lineStart ++ blanks ++ "import" ++ blanks ++ "(" ++ subject (many (CharSet.except ")")) ++ ")"

/-- The single imports of Go. -/
def importPattern : Pattern :=
  lineStart ++ blanks ++ "import" ++ blanks1 ++ opt (many1 (CharSet.ident ".") ++ blanks1) ++ "\"" ++
    subject (many1 (CharSet.except "\"")) ++ "\""

theorem anchored_blockPattern : blockPattern.anchored = true := rfl

theorem anchored_importPattern : importPattern.anchored = true := rfl

theorem beginsImport_of_hitAt_block {front back : Text} {hit : Hit}
    (found : blockPattern.hitAt (between front back) = some hit) : BeginsImport back := by
  rw [hitAt_eq] at found
  obtain ⟨way, isFirst, -⟩ := Option.map_eq_some_iff.mp found
  obtain ⟨w₆, isW₆, closes, -, -⟩ := mem_ways_seq.mp (List.mem_of_head? isFirst)
  obtain ⟨w₅, isW₅, named, -, -⟩ := mem_ways_seq.mp isW₆
  obtain ⟨w₄, isW₄, opens, isOpening, -⟩ := mem_ways_seq.mp isW₅
  obtain ⟨w₃, isW₃, spaced, isSpaced, rfl⟩ := mem_ways_seq.mp isW₄
  obtain ⟨w₂, isW₂, word, isWord, rfl⟩ := mem_ways_seq.mp isW₃
  obtain ⟨w₁, isW₁, blank, isBlank, rfl⟩ := mem_ways_seq.mp isW₂
  obtain rfl := eq_of_mem_lineStart isW₁
  obtain ⟨lead, rest, rfl, inLead, rfl⟩ := exists_of_mem_many isBlank
  obtain ⟨rest, rfl, rfl⟩ := exists_of_mem_literal isWord
  obtain ⟨gap, rest, rfl, inGap, rfl⟩ := exists_of_mem_many isSpaced
  obtain ⟨rest, rfl, -⟩ := exists_of_mem_literal isOpening
  exact ⟨lead, gap, '(' :: rest, rfl, inLead, inGap, .inl rfl⟩

/-- A single import is not that of a block. -/
theorem beginsImport_of_hitAt_import {front back : Text} {hit : Hit}
    (found : importPattern.hitAt (between front back) = some hit) :
    BeginsImport back ∧ ∃ lead gap c rest, back = lead ++ (importWord ++ (gap ++ c :: rest)) ∧
      (∀ c ∈ lead, isBlank c = true) ∧ (∀ c ∈ gap, isBlank c = true) ∧ isBlank c = false ∧ c ≠ '(' := by
  rw [hitAt_eq] at found
  obtain ⟨way, isFirst, -⟩ := Option.map_eq_some_iff.mp found
  obtain ⟨w₇, isW₇, closes, -, -⟩ := mem_ways_seq.mp (List.mem_of_head? isFirst)
  obtain ⟨w₆, isW₆, named, -, -⟩ := mem_ways_seq.mp isW₇
  obtain ⟨w₅, isW₅, opens, isOpening, -⟩ := mem_ways_seq.mp isW₆
  obtain ⟨w₄, isW₄, titled, isTitled, rfl⟩ := mem_ways_seq.mp isW₅
  obtain ⟨w₃, isW₃, spaced, isSpaced, rfl⟩ := mem_ways_seq.mp isW₄
  obtain ⟨w₂, isW₂, word, isWord, rfl⟩ := mem_ways_seq.mp isW₃
  obtain ⟨w₁, isW₁, blank, isBlank, rfl⟩ := mem_ways_seq.mp isW₂
  obtain rfl := eq_of_mem_lineStart isW₁
  obtain ⟨lead, rest, rfl, inLead, rfl⟩ := exists_of_mem_many isBlank
  obtain ⟨rest, rfl, rfl⟩ := exists_of_mem_literal isWord
  obtain ⟨gap, rest, rfl, filled, inGap, rfl⟩ := exists_of_mem_many1 isSpaced
  rcases mem_ways_opt.mp isTitled with present | rfl
  · obtain ⟨first, isName, second, isSpace, rfl⟩ := mem_ways_seq.mp present
    obtain ⟨name, rest, rfl, isNamed, inName, rfl⟩ := exists_of_mem_many1 isName
    obtain ⟨space, rest, rfl, -, inSpace, rfl⟩ := exists_of_mem_many1 isSpace
    obtain ⟨rest, rfl, -⟩ := exists_of_mem_literal isOpening
    obtain ⟨c, name, rfl⟩ := List.exists_cons_of_ne_nil isNamed
    have isName := inName c List.mem_cons_self
    refine ⟨⟨lead, gap, _, rfl, inLead, inGap, .inr ⟨filled, c :: name, space, rest, rfl, inName, inSpace⟩⟩,
      lead, gap, c, _, rfl, inLead, inGap, ?_, ?_⟩
    · have known : CharSet.ident "" c = true ∨ c = '.' := by simpa [CharSet.ident] using isName
      rcases known with isIdent | rfl
      · exact CharSet.isBlank_of_ident isIdent
      · decide
    · rintro rfl
      exact absurd isName (by decide)
  · obtain ⟨rest, rfl, -⟩ := exists_of_mem_literal isOpening
    exact ⟨⟨lead, gap, _, rfl, inLead, inGap, .inr ⟨filled, [], [], rest, rfl, List.forall_mem_nil _,
        List.forall_mem_nil _⟩⟩,
      lead, gap, '"', rest, rfl, inLead, inGap, by decide, by decide⟩

/-- A block is matched up to the first closing parenthesis. -/
theorem hitAt_blockPattern {front lead gap subject : Text}
    (begins : front = [] ∨ ∃ lines, front = lines ++ ['\n']) (inLead : ∀ c ∈ lead, isBlank c = true)
    (inGap : ∀ c ∈ gap, isBlank c = true) (first : ')' ∉ subject) (rest : Text) :
    let opening := front ++ lead ++ importWord ++ gap ++ ['(']
    blockPattern.hitAt
        (between front (lead ++ (importWord ++ (gap ++ '(' :: (subject ++ ')' :: rest))))) = some
      ⟨⟨between front (lead ++ (importWord ++ (gap ++ '(' :: (subject ++ ')' :: rest)))),
          byteLength (opening ++ subject ++ [')'])⟩,
        { subject := some ⟨between opening (subject ++ ')' :: rest), byteLength (opening ++ subject)⟩ }⟩ := by
  intro opening
  have closed : (")" : Pattern).Begins ')' := begins_literal ')' []
  have opens : ("(" : Pattern).Begins '(' := begins_literal '(' []
  have word : ("import" : Pattern).Begins 'i' := begins_literal 'i' _
  have bodyRead : (Pattern.subject (many (CharSet.except ")"))).first ((")" : Pattern).first ends)
      (between opening (subject ++ ')' :: rest)) =
        some (Completion.remember { stop := byteLength (opening ++ subject ++ [')']) } .subject
          ⟨between opening (subject ++ ')' :: rest), byteLength (opening ++ subject)⟩) := by
    refine (first_capture_between ?_).trans ?_
    · refine first_many_run ((closed.shuns (by decide)).map fun stop => (·.close stop.offset)) ?_ ?_
      · intro c member
        have apart : c ≠ ')' := by
          rintro rfl
          exact first member
        simp [CharSet.except, apart]
      · rintro _ ⟨⟩
        decide
    · rw [first_literal]
      exact congrArg _ (spell_append [')'])
  have read : blockPattern.first ends
      (between front (lead ++ (importWord ++ (gap ++ '(' :: (subject ++ ')' :: rest))))) =
        some (Completion.remember { stop := byteLength (opening ++ subject ++ [')']) } .subject
          ⟨between opening (subject ++ ')' :: rest), byteLength (opening ++ subject)⟩) := by
    simp only [blockPattern, first_append]
    refine (first_lineStart.trans (if_pos ((Text.Cursor.atLineStart_between _ _).mpr begins))).trans ?_
    refine (first_many_run (word.shuns (by decide)) inLead ?_).trans ?_
    · rintro _ ⟨⟩
      decide
    rw [first_literal]
    refine (spell_append importWord).trans ?_
    refine (first_many_run (opens.shuns (by decide)) inGap ?_).trans ?_
    · rintro _ ⟨⟩
      decide
    rw [first_literal]
    exact (spell_append ['(']).trans bodyRead
  exact congrArg (Option.map _) read

end Candidate

/-- The source of an import block, with the lines around it. -/
structure ImportBlock where
  /-- The lines before the block. -/
  front : Text
  /-- The blanks before the word, and those after it. -/
  lead : Text
  gap : Text
  lines : List BlockLine
  /-- What stands on the line of the closing parenthesis. -/
  last : BlockItem
  /-- What follows the closing parenthesis. -/
  back : Text

namespace ImportBlock

/-- The block from its word on. -/
def stretch (block : ImportBlock) : Text :=
  importWord ++ (block.gap ++ '(' :: (blockText block.lines block.last ++ ')' :: block.back))

def text (block : ImportBlock) : Text :=
  block.front ++ (block.lead ++ block.stretch)

structure WellFormed (block : ImportBlock) : Prop where
  begins : block.front = [] ∨ ∃ lines, block.front = lines ++ ['\n']
  lead : ∀ c ∈ block.lead, isBlank c = true
  gap : ∀ c ∈ block.gap, isBlank c = true
  lines : ∀ line ∈ block.lines, line.WellFormed
  last : block.last.WellFormed
  /-- No import begins on a line before the block. -/
  first : ∀ before after, block.front = before ++ after →
    (before = [] ∨ ∃ lines, before = lines ++ ['\n']) →
      BeginsImport (after ++ (block.lead ++ block.stretch)) → ∀ c ∈ after, isBlank c = true
  /-- No import begins on a line after the block. -/
  only : ∀ before after, block.back = before ++ '\n' :: after → ¬ BeginsImport after

variable {block : ImportBlock}

theorem not_opensImport_named {label : Text} (unlike : ¬ OpensImport label) (rest : Text) :
    ¬ OpensImport (label ++ '"' :: rest) := by
  rintro ⟨lead, c, more, parts, inLead, after⟩
  have absent : '"' ∉ lead ++ importWord := by
    refine List.not_mem_append (fun member => ?_) (by decide)
    exact absurd (inLead _ member) (by decide)
  rw [← List.append_assoc] at parts
  obtain ⟨inner, isLabel, isRest⟩ := Text.exists_of_append_eq absent parts.symm
  cases inner with
  | nil =>
    obtain ⟨rfl, -⟩ := List.cons.inj isRest
    exact absurd after (by decide)
  | cons first inner =>
    obtain ⟨rfl, -⟩ := List.cons.inj isRest
    rw [List.append_assoc] at isLabel
    exact unlike ⟨lead, c, inner, isLabel, inLead, after⟩

/-- No import begins within a block. -/
theorem not_opensImport_blockText {lines : List BlockLine} {last : BlockItem}
    (wellFormed : ∀ line ∈ lines, line.WellFormed) (lastWellFormed : last.WellFormed) (back : Text) :
    ¬ OpensImport (blockText lines last ++ ')' :: back) := by
  induction lines with
  | nil =>
    cases last with
    | blank gap =>
      intro opens
      have further : OpensImport (')' :: back) := opens.of_blank fun c member => (lastWellFormed c member).1
      exact not_opensImport_of_ink (by decide) (by decide) further
    | named label path gap =>
      have apart := not_opensImport_named lastWellFormed.2.1 (path ++ '"' :: gap ++ ')' :: back)
      rwa [← List.cons_append, ← List.cons_append, ← List.append_assoc] at apart
  | cons line lines ih =>
    obtain ⟨⟨isItem, -⟩, others⟩ := List.forall_mem_cons.mp wellFormed
    rw [blockText_cons, BlockLine.text]
    obtain ⟨item, comment⟩ := line
    cases item with
    | blank gap =>
      intro opens
      rw [BlockItem.text, List.append_assoc, List.append_assoc] at opens
      have further := opens.of_blank fun c member => (isItem c member).1
      cases comment with
      | none =>
        have lineEnd : ∀ c ∈ ['\n'], isBlank c = true := List.forall_mem_singleton.mpr rfl
        exact ih others (OpensImport.of_blank lineEnd further)
      | some comment => exact not_opensImport_of_ink (by decide) (by decide) further
    | named label path gap =>
      rw [BlockItem.text, List.append_assoc, List.append_assoc, List.append_assoc, List.cons_append]
      exact not_opensImport_named isItem.2.1 _

theorem not_beginsImport_after {lines : List BlockLine} {last : BlockItem} {back : Text}
    (wellFormed : ∀ line ∈ lines, line.WellFormed) (lastWellFormed : last.WellFormed)
    (only : ∀ before after, back = before ++ '\n' :: after → ¬ BeginsImport after) {before after : Text}
    (parts : blockText lines last ++ ')' :: back = before ++ '\n' :: after) : ¬ BeginsImport after := by
  induction lines generalizing before with
  | nil =>
    have clean : '\n' ∉ last.text ++ [')'] := List.not_mem_append (clean_item lastWellFormed).1 (by decide)
    have split : (last.text ++ [')']) ++ back = before ++ '\n' :: after := by
      rw [← parts]
      simp [blockText]
    obtain ⟨inner, -, isBack⟩ := Text.exists_of_append_eq clean split
    exact only inner after isBack
  | cons line lines ih =>
    obtain ⟨isLine, others⟩ := List.forall_mem_cons.mp wellFormed
    have clean : '\n' ∉ line.text :=
      List.not_mem_append (clean_item isLine.item).1 (clean_comment isLine)
    rw [blockText_cons, List.append_assoc, List.cons_append] at parts
    obtain ⟨inner, -, isRest⟩ := Text.exists_of_append_eq clean parts
    cases inner with
    | nil =>
      obtain ⟨-, rfl⟩ := List.cons.inj isRest
      exact fun begins => not_opensImport_blockText others lastWellFormed back begins.opens
    | cons c inner =>
      obtain ⟨-, further⟩ := List.cons.inj isRest
      exact ih others further

/-- No import begins on a line that starts after the word of the block. -/
theorem not_beginsImport_stretch (wellFormed : block.WellFormed) {inner after : Text}
    (parts : block.stretch = inner ++ '\n' :: after) : ¬ BeginsImport after := by
  have word : '\n' ∉ importWord := by decide
  obtain ⟨further, -, isRest⟩ := Text.exists_of_append_eq word parts
  rcases List.append_eq_append_iff.mp isRest with ⟨passed, -, isTail⟩ | ⟨gap, isGap, isAfter⟩
  · cases passed with
    | nil => exact absurd (List.cons.inj isTail).1 (by decide)
    | cons c passed =>
      exact not_beginsImport_after wellFormed.lines wellFormed.last wellFormed.only (List.cons.inj isTail).2
  · cases gap with
    | nil => exact absurd (List.cons.inj isAfter).1 (by decide)
    | cons c gap =>
      have blank : ∀ c ∈ gap, isBlank c = true := fun other member =>
        wellFormed.gap other (isGap ▸ List.mem_append_right _ (List.mem_cons_of_mem c member))
      rw [(List.cons.inj isAfter).2]
      exact fun begins => not_opensImport_of_ink (by decide) (by decide) (begins.opens.of_blank blank)

/-- The only import of the source is the block. -/
theorem exists_of_beginsImport (wellFormed : block.WellFormed) {before after : Text}
    (parts : block.text = before ++ after) (begins : before = [] ∨ ∃ lines, before = lines ++ ['\n'])
    (isImport : BeginsImport after) :
    ∃ lead, before ++ lead = block.front ++ block.lead ∧ after = lead ++ block.stretch ∧
      ∀ c ∈ lead, isBlank c = true := by
  rcases List.append_eq_append_iff.mp parts with ⟨passed, isBefore, isRest⟩ | ⟨skipped, isFront, isAfter⟩
  · rcases List.append_eq_append_iff.mp isRest with ⟨inner, isPassed, isStretch⟩ | ⟨lead, isLead, isAfter⟩
    · rcases List.eq_nil_or_concat inner with rfl | ⟨inner, last, rfl⟩
      · rw [List.append_nil] at isPassed
        exact ⟨[], by rw [isBefore, isPassed, List.append_nil], isStretch.symm, nofun⟩
      · obtain rfl : last = '\n' := by
          rcases begins with rfl | ⟨lines, rfl⟩
          · simp [isPassed] at isBefore
          · rw [isPassed, List.concat_eq_append, ← List.append_assoc, ← List.append_assoc] at isBefore
            exact (List.cons.inj (List.append_inj' isBefore rfl).2).1.symm
        rw [List.concat_eq_append, List.append_assoc] at isStretch
        exact absurd isImport (not_beginsImport_stretch wellFormed isStretch)
    · refine ⟨lead, ?_, isAfter, fun c member => wellFormed.lead c ?_⟩
      · rw [isBefore, isLead, List.append_assoc]
      · rw [isLead]
        exact List.mem_append_right _ member
  · have blank := wellFormed.first before skipped isFront begins (isAfter ▸ isImport)
    refine ⟨skipped ++ block.lead, ?_, ?_, List.forall_mem_append.mpr ⟨blank, wellFormed.lead⟩⟩
    · rw [isFront, List.append_assoc]
    · rw [isAfter, List.append_assoc]

/-- The source up to and with the opening parenthesis. -/
def opening (block : ImportBlock) : Text :=
  block.front ++ block.lead ++ importWord ++ block.gap ++ ['(']

def allLines (block : ImportBlock) : List BlockLine :=
  block.lines ++ [⟨block.last, none⟩]

theorem text_eq (block : ImportBlock) :
    block.text = block.opening ++ (blockText block.lines block.last ++ ')' :: block.back) := by
  simp [text, stretch, opening]

theorem statementModules_go (source : Source) :
    statementModules source (.ofGrammar .go .module) =
      (importPattern.hits source.text).filterMap fun hit =>
        hit.captures.subject.bind fun span => moduleAt? source span.text span.offset := by
  rw [statementModules]
  exact List.flatMap_singleton _ (importPattern, PatternRole.importing)

theorem groupedModules_go {source : Source} (isGo : source.language = .go) :
    groupedModules source (.ofGrammar .go .module) =
      (blockPattern.hits source.text).flatMap fun hit =>
        match hit.captures.subject with
        | some span => blockModules source span.offset (Text.lines span.text)
        | none => [] := by
  have isBlock : (PatternSet.ofGrammar .go .module).importBlock = some blockPattern := rfl
  rw [groupedModules, isBlock, isGo]
  rfl

/-- The block is no single import. -/
theorem hits_importPattern (wellFormed : block.WellFormed) : importPattern.hits block.text = [] := by
  refine List.eq_nil_iff_forall_not_mem.mpr fun hit member => ?_
  obtain ⟨before, after, parts, found⟩ := exists_of_mem_hits member
  have begins := lineStart_of_hitAt anchored_importPattern found
  obtain ⟨isImport, lead, gap, c, rest, isSingle, inLead, inGap, isInk, other⟩ :=
    beginsImport_of_hitAt_import found
  obtain ⟨lead', -, isBlock, inLead'⟩ := exists_of_beginsImport wellFormed parts begins isImport
  have word : ∀ rest, importWord ++ rest = 'i' :: ("mport".toList ++ rest) := fun _ => rfl
  rw [isSingle, stretch, word, word] at isBlock
  have same := Text.eq_of_blank_append inLead inLead' (by decide) (by decide) isBlock
  rw [← word, ← word] at same
  have opens := Text.eq_of_blank_append inGap wellFormed.gap isInk (by decide) (List.append_cancel_left same)
  exact other (List.cons.inj opens).1

/-- Every match of a block is that of the block, up to where its first closing parenthesis stands. -/
theorem exists_hits_blockPattern (wellFormed : block.WellFormed) {subject rest : Text}
    (isSubject : blockText block.lines block.last ++ ')' :: block.back = subject ++ ')' :: rest)
    (first : ')' ∉ subject) :
    ∃ hit, blockPattern.hits block.text = [hit] ∧ hit.captures.subject =
      some ⟨between block.opening (subject ++ ')' :: rest), byteLength (block.opening ++ subject)⟩ := by
  have isStretch : block.stretch = importWord ++ (block.gap ++ '(' :: (subject ++ ')' :: rest)) := by
    rw [stretch, isSubject]
  have known : ∀ hit ∈ blockPattern.candidates block.text,
      hit.whole.offset ≤ byteLength (block.front ++ block.lead) ∧
      hit.whole.stop = byteLength (block.opening ++ subject ++ [')']) ∧ hit.captures.subject =
        some ⟨between block.opening (subject ++ ')' :: rest), byteLength (block.opening ++ subject)⟩ := by
    intro hit member
    obtain ⟨before, after, parts, found⟩ := exists_of_mem_candidates member
    have begins := lineStart_of_hitAt anchored_blockPattern found
    obtain ⟨lead, isLead, rfl, inLead⟩ :=
      exists_of_beginsImport wellFormed parts begins (beginsImport_of_hitAt_block found)
    rw [isStretch, hitAt_blockPattern begins inLead wellFormed.gap first rest, isLead] at found
    cases found
    refine ⟨?_, rfl, rfl⟩
    change byteLength before ≤ _
    rw [← isLead, Text.byteLength_append]
    exact Nat.le_add_right _ _
  have further : byteLength (block.front ++ block.lead) < byteLength (block.opening ++ subject ++ [')']) := by
    have parts : block.opening ++ subject ++ [')'] =
        (block.front ++ block.lead) ++ (importWord ++ block.gap ++ ['('] ++ subject ++ [')']) := by
      simp [opening]
    have filled : importWord ++ block.gap ++ ['('] ++ subject ++ [')'] ≠ [] :=
      List.append_ne_nil_of_right_ne_nil _ (List.cons_ne_nil _ _)
    rw [parts, Text.byteLength_append (block.front ++ block.lead)]
    exact Nat.lt_add_of_pos_right (Text.byteLength_pos filled)
  have present := mem_candidates
    (hitAt_blockPattern wellFormed.begins wellFormed.lead wellFormed.gap first rest)
  rw [← isStretch] at present
  obtain ⟨hit, member, kept⟩ := exists_hits_eq_singleton present fun hit isHit other isOther => by
    rw [(known hit isHit).2.1]
    exact Nat.lt_of_le_of_lt (known other isOther).1 further
  exact ⟨hit, kept, (known hit member).2.2⟩

/-- What is reported for the source is what is reported for the lines of the block. -/
theorem inLayer_module_eq (wellFormed : block.WellFormed) (path : Path) :
    inLayer (.ofContent .go path (String.ofList block.text)) .module =
      reportedModules path block.opening block.allLines := by
  obtain ⟨subject, rest, isSubject, first, read⟩ :=
    @exists_subject block.lines (String.ofList block.text) path block.last wellFormed.lines wellFormed.last
      block.back
  obtain ⟨hit, hits, captured⟩ := exists_hits_blockPattern wellFormed isSubject first
  have isText : (Source.ofContent .go path (String.ofList block.text)).text = block.text :=
    String.toList_ofList
  have single :
      statementModules (.ofContent .go path (String.ofList block.text)) (.ofGrammar .go .module) = [] := by
    rw [statementModules_go, isText, hits_importPattern wellFormed, List.filterMap_nil]
  have grouped : groupedModules (.ofContent .go path (String.ofList block.text)) (.ofGrammar .go .module) =
      reportedModules path block.opening block.allLines := by
    rw [groupedModules_go rfl, isText, hits, List.flatMap_singleton, captured]
    change blockModules _ (byteLength block.opening) (Text.lines _) = _
    rw [Text.Span.text_between]
    exact read block.opening (isText.trans block.text_eq)
  change modules _ (.ofGrammar .go .module) = _
  rw [modules, single, grouped, List.nil_append]

end ImportBlock

/-- The imports of a block are reported in order, each with the number of its line, exactly if no comment
closes the block before one of them and none has blanks or separators around its name. -/
theorem extractAs_importBlock (block : ImportBlock) (wellFormed : block.WellFormed) (path : Path)
    (mask : LayerMask) (included : mask.contains .module = true) :
    ∃ found, extractAs .filled .go path (String.ofList block.text) mask = .ok found ∧
      (found.filter (·.layer == .module) = wantedModules path block.opening block.allLines ↔
        ReadsLines block.allLines) := by
  obtain ⟨found, isFound, modules⟩ := exists_extractAs_filter .go path (String.ofList block.text) included
  refine ⟨found, isFound, ?_⟩
  rw [modules, block.inLayer_module_eq wellFormed, reportedModules_eq_iff]

/-- A block with a comment in parentheses on the line of its first path. -/
def closedBlock : ImportBlock where
  front := "package tool\n\n".toList
  lead := []
  gap := " ".toList
  lines := [
    ⟨.blank [], none⟩,
    ⟨.named "\t".toList "acme/box".toList " ".toList, some " (vendored)".toList⟩,
    ⟨.named "\tlog ".toList "acme/log".toList [], none⟩]
  last := .blank []
  back := "\n\nfunc run() {}\n".toList

theorem extractAs_importBlock_closed :
    closedBlock.WellFormed ∧ LayerMask.all.contains .module = true ∧
      ∃ found, extractAs .filled .go ⟨"tool.go"⟩ (String.ofList closedBlock.text) .all = .ok found ∧
        let wanted := wantedModules ⟨"tool.go"⟩ closedBlock.opening closedBlock.allLines
        wanted.map (fun dependency => (dependency.target, dependency.line)) =
            [("acme/box", 4), ("acme/log", 5)] ∧
          found.filter (·.layer == .module) ≠ wanted := by
  have plain {text : Text} (clean : ∀ c ∈ text, c ∉ ['"', '(', ')', '\n'])
      (uncommented : ¬ commentMark <:+: text) : BlockItem.IsPlain text := ⟨clean, uncommented⟩
  have unlike {text : Text} (absent : 'i' ∉ text) : ¬ OpensImport text := by
    rintro ⟨lead, c, rest, rfl, -⟩
    exact absent (List.mem_append_right _ List.mem_cons_self)
  have wellFormed : closedBlock.WellFormed := {
    begins := .inr ⟨"package tool\n".toList, by decide⟩
    lead := nofun
    gap := List.all_iff_forall_prop.mp (by decide)
    lines := by
      refine List.forall_mem_cons.mpr ⟨⟨nofun, nofun⟩, List.forall_mem_cons.mpr ⟨⟨?_, ?_⟩,
        List.forall_mem_cons.mpr ⟨⟨?_, nofun⟩, nofun⟩⟩⟩
      · exact ⟨plain (List.all_iff_forall_prop.mp (by decide)) (by decide), unlike (by decide),
          plain (List.all_iff_forall_prop.mp (by decide)) (by decide),
          List.forall_mem_singleton.mpr (by decide)⟩
      · rintro _ ⟨⟩
        decide
      · exact ⟨plain (List.all_iff_forall_prop.mp (by decide)) (by decide), unlike (by decide),
          plain (List.all_iff_forall_prop.mp (by decide)) (by decide), nofun⟩
    last := nofun
    first := by
      rintro before after parts - isImport
      rcases Text.exists_first (fun c => !isBlank c) after with
        blank | ⟨blanks, c, more, rfl, inBlanks, isInk⟩
      · exact fun c member => by simpa using blank c member
      · have opens := isImport.opens
        rw [List.append_assoc] at opens
        have further := opens.of_blank fun c member => by simpa using inBlanks c member
        have absent : 'i' ∉ closedBlock.front := by decide
        have other : c ≠ 'i' := by
          rintro rfl
          exact absent (parts ▸ by simp)
        exact absurd further (not_opensImport_of_ink (by simpa using isInk) other)
    only := by
      rintro before after parts isImport
      have absent : 'i' ∉ closedBlock.back := by decide
      refine unlike (fun member => absent ?_) isImport.opens
      rw [parts]
      exact List.mem_append_right _ (List.mem_cons_of_mem _ member) }
  have cut : ¬ ReadsLines closedBlock.allLines := by
    rintro ⟨-, pairs⟩
    have later := (List.pairwise_cons.mp (List.pairwise_cons.mp pairs).2).1
    have lost := later ⟨.named "\tlog ".toList "acme/log".toList [], none⟩ List.mem_cons_self (by decide)
    exact absurd lost (by decide +kernel)
  obtain ⟨found, isResult, reported⟩ :=
    extractAs_importBlock closedBlock wellFormed ⟨"tool.go"⟩ .all (by decide)
  exact ⟨wellFormed, by decide, found, isResult, by decide +kernel, fun same => cut (reported.mp same)⟩

end DepAtlas.Extract
