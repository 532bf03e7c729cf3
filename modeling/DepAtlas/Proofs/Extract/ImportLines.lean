import DepAtlas.Proofs.Extract.Definitions
import DepAtlas.Proofs.Text.Bytes
import DepAtlas.Proofs.Text.Cutting

/-!
The lines of an import block, and what is reported for them.

Each line is read without its comment. What stands around the quoted path is passed over, so that the path is
found whatever alias stands before it and whatever comment after it. The block itself is read up to its first
closing parenthesis only, so that a comment that holds one hides the lines after its own: what is reported
are all the paths that are to be reported exactly if none of them stands on such a line, and each is its own
cleaned name.
-/

namespace DepAtlas.Extract

open Pattern
open Text (byteLength isBlank LineIndex)
open Text.Cursor (between)

/-- The word with which an import begins. -/
def importWord : Text := "import".toList

/-- What a comment begins with. -/
def commentMark : Text := ['/', '/']

section Beginning

/-- A text begins with the word of an import, and a blank or an opening parenthesis after it. -/
def OpensImport (text : Text) : Prop :=
  ∃ lead c rest, text = lead ++ (importWord ++ c :: rest) ∧ (∀ c ∈ lead, isBlank c = true) ∧
    (isBlank c = true ∨ c = '(')

/-- A text begins with an import: that of a block, or that of a quoted path, which may have an alias. -/
def BeginsImport (text : Text) : Prop :=
  ∃ lead gap rest, text = lead ++ (importWord ++ (gap ++ rest)) ∧ (∀ c ∈ lead, isBlank c = true) ∧
    (∀ c ∈ gap, isBlank c = true) ∧
    (rest.head? = some '(' ∨ gap ≠ [] ∧ ∃ name space after, rest = name ++ (space ++ '"' :: after) ∧
      (∀ c ∈ name, CharSet.ident "." c = true) ∧ ∀ c ∈ space, isBlank c = true)

variable {text : Text} {c : Char}

theorem BeginsImport.opens (begins : BeginsImport text) : OpensImport text := by
  obtain ⟨lead, gap, rest, rfl, blank, blankGap, after⟩ := begins
  cases gap with
  | nil =>
    obtain opens | ⟨filled, -⟩ := after
    · obtain ⟨more, rfl⟩ := List.head?_eq_some_iff.mp opens
      exact ⟨lead, '(', more, rfl, blank, .inr rfl⟩
    · exact absurd rfl filled
  | cons c gap => exact ⟨lead, c, gap ++ rest, rfl, blank, .inl (blankGap c List.mem_cons_self)⟩

theorem OpensImport.of_blank {run : Text} (blank : ∀ c ∈ run, isBlank c = true)
    (opens : OpensImport (run ++ text)) : OpensImport text := by
  obtain ⟨lead, c, rest, parts, inLead, after⟩ := opens
  have absent : 'i' ∉ run := fun member => absurd (blank _ member) (by decide)
  obtain ⟨inner, rfl, isText⟩ := Text.exists_of_append_eq absent parts
  exact ⟨inner, c, rest, isText, (List.forall_mem_append.mp inLead).2, after⟩

theorem not_opensImport_of_ink (isInk : isBlank c = false) (other : c ≠ 'i') :
    ¬ OpensImport (c :: text) := by
  rintro ⟨lead, next, rest, parts, inLead, -⟩
  cases lead with
  | nil => exact other (List.cons.inj parts).1
  | cons first lead =>
    obtain ⟨rfl, -⟩ := List.cons.inj parts
    have blank := inLead c List.mem_cons_self
    rw [isInk] at blank
    cases blank

end Beginning

/-- What stands on a line of an import block before a comment. -/
inductive BlockItem
  | blank (gap : Text)
  /-- A quoted path, with what stands before and after it. -/
  | named (label path gap : Text)

namespace BlockItem

def text : BlockItem → Text
  | blank gap => gap
  | named label path gap => label ++ '"' :: (path ++ '"' :: gap)

/-- Blanks on one line. -/
def IsGap (text : Text) : Prop :=
  ∀ c ∈ text, isBlank c = true ∧ c ≠ '\n'

/-- No quotation mark, parenthesis, line end or comment stands in a text. -/
def IsPlain (text : Text) : Prop :=
  (∀ c ∈ text, c ∉ ['"', '(', ')', '\n']) ∧ ¬ commentMark <:+: text

/-- The word of an import is no alias. -/
def WellFormed : BlockItem → Prop
  | blank gap => IsGap gap
  | named label path gap => IsPlain label ∧ ¬ OpensImport label ∧ IsPlain path ∧ IsGap gap

/-- The path, unless it belongs to the standard library. -/
def wanted? : BlockItem → Option String
  | blank _ => none
  | named _ path _ =>
    if Grammar.go.isLibrary (String.ofList path) then none else some (String.ofList path)

/-- The name that is reported for the path. -/
def reported? : BlockItem → Option String
  | blank _ => none
  | named _ path _ => (Language.go.moduleName? path).filter (keepsModule .go)

variable {item : BlockItem}

theorem keepsModule_go (name : String) : keepsModule .go name = !Grammar.go.isLibrary name := rfl

/-- The names of the standard library have nothing around them that does not belong to them. -/
theorem moduleName?_of_isLibrary {name : String} (isLibrary : Grammar.go.isLibrary name = true) :
    Language.go.moduleName? name.toList = some name := by
  have listed : name ∈ Grammar.go.library.exact := by
    simpa [Grammar.isLibrary, LibraryFilter.includes, Grammar.go] using isLibrary
  have clean : ∀ name ∈ Grammar.go.library.exact, Language.go.moduleName? name.toList = some name := by
    decide +kernel
  exact clean name listed

theorem reported?_eq_none (unwanted : item.wanted? = none) : item.reported? = none := by
  cases item with
  | blank gap => rfl
  | named label path gap =>
    have isLibrary : Grammar.go.isLibrary (String.ofList path) = true := by
      rw [wanted?] at unwanted
      by_contra other
      rw [if_neg other] at unwanted
      cases unwanted
    have isNamed := moduleName?_of_isLibrary isLibrary
    rw [String.toList_ofList] at isNamed
    rw [reported?, isNamed, Option.filter_some, keepsModule_go, isLibrary]
    rfl

theorem reported?_eq_some_iff {name : String} (isWanted : item.wanted? = some name) :
    item.reported? = some name ↔ Language.go.moduleName? name.toList = some name := by
  cases item with
  | blank gap => cases isWanted
  | named label path gap =>
    rw [wanted?] at isWanted
    split at isWanted
    case isTrue => cases isWanted
    case isFalse other =>
      obtain rfl := Option.some.inj isWanted
      rw [reported?, Option.filter_eq_some_iff, keepsModule_go, String.toList_ofList,
        Bool.not_eq_true' , and_iff_left (Bool.eq_false_iff.mpr other)]

end BlockItem

/-- A line of an import block. -/
structure BlockLine where
  item : BlockItem
  comment : Option Text

namespace BlockLine

def commentText (line : BlockLine) : Text :=
  match line.comment with
  | none => []
  | some comment => commentMark ++ comment

def text (line : BlockLine) : Text :=
  line.item.text ++ line.commentText

structure WellFormed (line : BlockLine) : Prop where
  item : line.item.WellFormed
  comment : ∀ comment, line.comment = some comment → '\n' ∉ comment

end BlockLine

/-- The dependency on a module that is named after a part of a source. -/
def moduleAfter (path : Path) (before : Text) (name : String) : Dependency where
  source := path
  target := name
  layer := .module
  language := .go
  line := min (before.count '\n' + 1) LineIndex.maxLine
  detail := none

/-- The modules on the lines of a block that are not of the standard library. -/
def wantedModules (path : Path) : Text → List BlockLine → List Dependency
  | _, [] => []
  | before, line :: lines =>
    (line.item.wanted?.map (moduleAfter path before)).toList ++
      wantedModules path (before ++ (line.text ++ ['\n'])) lines

/-- What is reported for the lines of a block. -/
def reportedModules (path : Path) : Text → List BlockLine → List Dependency
  | _, [] => []
  | before, line :: lines =>
    (line.item.reported?.map (moduleAfter path before)).toList ++
      if ')' ∈ line.commentText then [] else reportedModules path (before ++ (line.text ++ ['\n'])) lines

/-- Every path is its own name, and no comment closes the block before a path that is to be reported. -/
def ReadsLines (lines : List BlockLine) : Prop :=
  (∀ line ∈ lines, ∀ name, line.item.wanted? = some name → Language.go.moduleName? name.toList = some name) ∧
    lines.Pairwise fun line later => ')' ∈ line.commentText → later.item.wanted? = none

section Comparison

variable {path : Path} {before : Text} {line : BlockLine} {lines : List BlockLine}

theorem moduleAfter_inj {name other : String} :
    moduleAfter path before name = moduleAfter path before other ↔ name = other :=
  ⟨fun same => congrArg (·.target) same, fun same => same ▸ rfl⟩

theorem wantedModules_eq_nil_iff :
    wantedModules path before lines = [] ↔ ∀ line ∈ lines, line.item.wanted? = none := by
  induction lines generalizing before with
  | nil => exact iff_of_true rfl nofun
  | cons line lines ih =>
    rw [wantedModules, List.append_eq_nil_iff, ih, List.forall_mem_cons]
    cases line.item.wanted? <;> simp

theorem item_length_le :
    (line.item.reported?.map (moduleAfter path before)).toList.length ≤
      (line.item.wanted?.map (moduleAfter path before)).toList.length := by
  cases isWanted : line.item.wanted? with
  | none => rw [BlockItem.reported?_eq_none isWanted]
  | some name => cases line.item.reported? <;> simp

theorem item_eq_iff :
    (line.item.reported?.map (moduleAfter path before)).toList =
        (line.item.wanted?.map (moduleAfter path before)).toList ↔
      ∀ name, line.item.wanted? = some name → Language.go.moduleName? name.toList = some name := by
  cases isWanted : line.item.wanted? with
  | none => exact iff_of_true (by rw [BlockItem.reported?_eq_none isWanted]) nofun
  | some name =>
    have single : (∀ other, some name = some other → Language.go.moduleName? other.toList = some other) ↔
        Language.go.moduleName? name.toList = some name := by simp
    rw [single, ← BlockItem.reported?_eq_some_iff isWanted]
    cases line.item.reported? with
    | none => simp
    | some other => simp [moduleAfter_inj]

theorem reportedModules_length_le :
    (reportedModules path before lines).length ≤ (wantedModules path before lines).length := by
  induction lines generalizing before with
  | nil => exact Nat.le_refl 0
  | cons line lines ih =>
    rw [reportedModules, wantedModules, List.length_append, List.length_append]
    refine Nat.add_le_add item_length_le ?_
    split
    · exact Nat.zero_le _
    · exact ih

theorem reportedModules_eq_iff :
    reportedModules path before lines = wantedModules path before lines ↔ ReadsLines lines := by
  induction lines generalizing before with
  | nil => exact iff_of_true rfl ⟨nofun, .nil⟩
  | cons line lines ih =>
    have later : (if ')' ∈ line.commentText then [] else
          reportedModules path (before ++ (line.text ++ ['\n'])) lines) =
        wantedModules path (before ++ (line.text ++ ['\n'])) lines ↔
        (∀ other ∈ lines, ')' ∈ line.commentText → other.item.wanted? = none) ∧ ReadsLines lines := by
      split
      case isTrue closes =>
        rw [eq_comm, wantedModules_eq_nil_iff]
        constructor
        · intro unwanted
          refine ⟨fun other member _ => unwanted other member, fun other member name isWanted => ?_, ?_⟩
          · rw [unwanted other member] at isWanted
            cases isWanted
          · exact List.pairwise_of_forall_mem_list fun _ _ other member _ => unwanted other member
        · exact fun both other member => both.1 other member closes
      case isFalse stays =>
        rw [ih]
        exact (and_iff_right fun _ _ closes => absurd closes stays).symm
    have shorter := @reportedModules_length_le path (before ++ (line.text ++ ['\n'])) lines
    have rest : (if ')' ∈ line.commentText then [] else
        reportedModules path (before ++ (line.text ++ ['\n'])) lines).length ≤
          (wantedModules path (before ++ (line.text ++ ['\n'])) lines).length := by
      split
      · exact Nat.zero_le _
      · exact shorter
    have first := @item_length_le path before line
    rw [reportedModules, wantedModules, ReadsLines, List.forall_mem_cons, List.pairwise_cons]
    constructor
    · intro same
      -- Neither part is longer than it should be, so that both are as long.
      have lengths := congrArg List.length same
      rw [List.length_append, List.length_append] at lengths
      obtain ⟨sameItem, sameLater⟩ := List.append_inj same (by omega)
      obtain ⟨closing, named, pairs⟩ := later.mp sameLater
      exact ⟨⟨item_eq_iff.mp sameItem, named⟩, closing, pairs⟩
    · rintro ⟨⟨named, allNamed⟩, closing, pairs⟩
      rw [item_eq_iff.mpr named, later.mpr ⟨closing, allNamed, pairs⟩]

end Comparison

/-- The path with its offset on the line. -/
def BlockItem.quoted? : BlockItem → Option (Nat × Text)
  | blank _ => none
  | named label path _ => some (byteLength label + 1, path)

section Reading

variable {item : BlockItem} {line : BlockLine} {lines : List BlockLine} {tail : Text}

/-- What may follow an item on its line: the end of the line, or a comment. -/
def EndsItem (tail : Text) : Prop :=
  tail = [] ∨ tail = ['\n'] ∨ ∃ comment, tail = commentMark ++ comment

theorem exists_before_commentMark (isEnd : EndsItem tail) :
    ∃ rest, Text.before commentMark tail = rest ∧ '"' ∉ rest := by
  rcases isEnd with rfl | rfl | ⟨comment, rfl⟩
  · exact ⟨[], rfl, List.not_mem_nil⟩
  · exact ⟨['\n'], rfl, by decide⟩
  · exact ⟨[], rfl, List.not_mem_nil⟩

theorem before_gap {gap : Text} (isGap : BlockItem.IsGap gap) (tail : Text) :
    Text.before commentMark (gap ++ tail) = gap ++ Text.before commentMark tail := by
  refine Text.before_append_of_not_mem (fun member => ?_) tail
  exact absurd (isGap _ member).1 (by decide)

theorem quotedImport?_of_before {text code : Text} (isCode : Text.before commentMark text = code) :
    quotedImport? text = (Text.findWhere? (· == '"') code).bind fun opening =>
      (Text.findWhere? (· == '"') (Text.dropBytes (opening + 1) code)).bind fun closing =>
        some (opening + 1, Text.takeBytes closing (Text.dropBytes (opening + 1) code)) := by
  subst isCode
  rfl

theorem not_quote {text : Text} (absent : '"' ∉ text) : ∀ c ∈ text, (c == '"') = false := by
  intro c member
  rw [beq_eq_false_iff_ne]
  rintro rfl
  exact absent member

theorem quotedImport?_named {text label path rest : Text} (inLabel : '"' ∉ label) (inPath : '"' ∉ path)
    (isCode : Text.before commentMark text = label ++ '"' :: (path ++ '"' :: rest)) :
    quotedImport? text = some (byteLength label + 1, path) := by
  have opened : Text.findWhere? (· == '"') (label ++ '"' :: (path ++ '"' :: rest)) =
      some (byteLength label) :=
    Text.findWhere?_first (not_quote inLabel) rfl _
  have closed : Text.findWhere? (· == '"') (path ++ '"' :: rest) = some (byteLength path) :=
    Text.findWhere?_first (not_quote inPath) rfl _
  have fromPath : Text.dropBytes (byteLength label + 1) (label ++ '"' :: (path ++ '"' :: rest)) =
      path ++ '"' :: rest := by
    have dropped := Text.dropBytes_byteLength_append (label ++ ['"']) (path ++ '"' :: rest)
    rwa [Text.byteLength_append, List.append_assoc, List.singleton_append] at dropped
  rw [quotedImport?_of_before isCode, opened, Option.bind_some, fromPath, closed, Option.bind_some,
    Text.takeBytes_byteLength_append]

/-- The path is found on its line, whatever comment follows it. -/
theorem quotedImport?_item (wellFormed : item.WellFormed) (isEnd : EndsItem tail) :
    quotedImport? (item.text ++ tail) = item.quoted? := by
  obtain ⟨rest, isRest, clean⟩ := exists_before_commentMark isEnd
  cases item with
  | blank gap =>
    have noQuote : '"' ∉ gap ++ rest := by
      refine List.not_mem_append (fun member => ?_) clean
      exact absurd (wellFormed _ member).1 (by decide)
    have isCode : Text.before commentMark (gap ++ tail) = gap ++ rest := by
      rw [before_gap wellFormed, isRest]
    rw [BlockItem.text, quotedImport?_of_before isCode, Text.findWhere?_eq_none (not_quote noQuote)]
    rfl
  | named label path gap =>
    obtain ⟨⟨plainLabel, uncommented⟩, -, ⟨plainPath, unbroken⟩, isGap⟩ := wellFormed
    have quoted (rest : Text) : ∀ other, ('"' :: rest).head? = some other → other ∉ ['/'] := by
      rintro _ ⟨⟩
      decide
    have isCode : Text.before commentMark ((BlockItem.named label path gap).text ++ tail) =
        label ++ '"' :: (path ++ '"' :: (gap ++ rest)) := by
      have inLabel := Text.before_append_of_absent uncommented (quoted (path ++ '"' :: (gap ++ tail)))
      have inPath := Text.before_append_of_absent unbroken (quoted (gap ++ tail))
      rw [BlockItem.text, List.append_assoc, List.cons_append, List.append_assoc, List.cons_append,
        commentMark, inLabel, Text.before_cons_of_ne (by decide), inPath,
        Text.before_cons_of_ne (by decide), ← commentMark, before_gap isGap, isRest]
    exact quotedImport?_named (fun member => plainLabel _ member (by decide))
      (fun member => plainPath _ member (by decide)) isCode

theorem moduleAt?_eq (source : Source) (raw : Text) (offset : Nat) :
    moduleAt? source raw offset = ((source.language.moduleName? raw).filter (keepsModule source.grammar)).map
      (source.dependency · .module offset none) := by
  rw [moduleAt?]
  cases source.language.moduleName? raw with
  | none => rfl
  | some name =>
    dsimp only
    rw [Option.filter_some]
    split <;> rfl

variable {path : Path} {content : String} {before rest : Text}

/-- A line of a block gives the module on it, with the number of its line. -/
theorem module_of_line (path : Path) (wellFormed : item.WellFormed) (isEnd : EndsItem tail)
    (parts : content.toList = before ++ (item.text ++ rest)) :
    ((quotedImport? (item.text ++ tail)).bind fun (inner, name) =>
        moduleAt? (.ofContent .go path content) name (byteLength before + inner)) =
      item.reported?.map (moduleAfter path before) := by
  rw [quotedImport?_item wellFormed isEnd]
  cases item with
  | blank gap => rfl
  | named label name gap =>
    obtain ⟨⟨plain, -⟩, -⟩ := wellFormed
    have width : byteLength before + (byteLength label + 1) = byteLength (before ++ (label ++ ['"'])) := by
      rw [Text.byteLength_append, Text.byteLength_append]
      rfl
    have onLine : (label ++ ['"']).count '\n' = 0 := by
      refine List.count_eq_zero_of_not_mem (List.not_mem_append (fun member => ?_) (by decide))
      exact plain _ member (by decide)
    have line : (LineIndex.ofText content.toList).lineOf (byteLength before + (byteLength label + 1)) =
        min (before.count '\n' + 1) LineIndex.maxLine := by
      have isText : content.toList = (before ++ (label ++ ['"'])) ++ (name ++ '"' :: gap ++ rest) := by
        rw [parts, BlockItem.text]
        simp
      rw [isText, width, lineOf_append, List.count_append, onLine, Nat.add_zero]
    change moduleAt? (.ofContent .go path content) name _ = _
    rw [moduleAt?_eq, BlockItem.reported?]
    change Option.map
      (fun target => Source.dependency (.ofContent .go path content) target .module _ none) _ = _
    refine congrFun (congrArg Option.map (funext fun target => ?_)) _
    change (⟨path, target, .module, .go, (LineIndex.ofText content.toList).lineOf _, none⟩ : Dependency) = _
    rw [line]
    rfl

/-- The lines of a block up to its last, which ends with the closing parenthesis. -/
def blockText (lines : List BlockLine) (last : BlockItem) : Text :=
  lines.flatMap (fun line => line.text ++ ['\n']) ++ last.text

theorem blockText_cons (line : BlockLine) (lines : List BlockLine) (last : BlockItem) :
    blockText (line :: lines) last = line.text ++ '\n' :: blockText lines last := by
  simp [blockText]

theorem clean_item (wellFormed : item.WellFormed) : '\n' ∉ item.text ∧ ')' ∉ item.text := by
  cases item with
  | blank gap =>
    exact ⟨fun member => (wellFormed _ member).2 rfl,
      fun member => absurd (wellFormed _ member).1 (by decide)⟩
  | named label path gap =>
    obtain ⟨⟨plainLabel, -⟩, -, ⟨plainPath, -⟩, isGap⟩ := wellFormed
    have clean {c : Char} (special : c ∈ ['(', ')', '\n']) (inGap : c ∉ gap) :
        c ∉ (BlockItem.named label path gap).text := by
      have apart : c ≠ '"' := by
        rintro rfl
        exact absurd special (by decide)
      have inLabel : c ∉ label := fun member => plainLabel c member (List.mem_cons_of_mem _ special)
      have inPath : c ∉ path := fun member => plainPath c member (List.mem_cons_of_mem _ special)
      simp [BlockItem.text, apart, inLabel, inPath, inGap]
    exact ⟨clean (by decide) fun member => (isGap _ member).2 rfl,
      clean (by decide) fun member => absurd (isGap _ member).1 (by decide)⟩

theorem blockModules_cons {before line rest : Text} {source : Source} (clean : '\n' ∉ line) :
    blockModules source (byteLength before) (Text.lines (line ++ '\n' :: rest)) =
      ((quotedImport? (line ++ ['\n'])).bind fun (inner, name) =>
        moduleAt? source name (byteLength before + inner)).toList ++
        blockModules source (byteLength (before ++ (line ++ ['\n']))) (Text.lines rest) := by
  rw [Text.lines_of_line clean, blockModules, Text.byteLength_append before]

theorem blockModules_last {before line : Text} {source : Source} (clean : '\n' ∉ line) :
    blockModules source (byteLength before) (Text.lines line) =
      ((quotedImport? line).bind fun (inner, name) =>
        moduleAt? source name (byteLength before + inner)).toList := by
  cases line with
  | nil => rfl
  | cons c line =>
    rw [Text.lines_of_clean (List.cons_ne_nil c line) clean, blockModules, blockModules, List.append_nil]

theorem clean_comment (wellFormed : line.WellFormed) : '\n' ∉ line.commentText := by
  rw [BlockLine.commentText]
  split
  case h_1 => exact List.not_mem_nil
  case h_2 comment isComment =>
    exact List.not_mem_append (by decide) (wellFormed.comment comment isComment)

theorem endsItem_comment (line : BlockLine) : EndsItem (line.commentText ++ ['\n']) := by
  rw [BlockLine.commentText]
  split
  case h_1 => exact .inr (.inl rfl)
  case h_2 comment _ => exact .inr (.inr ⟨comment ++ ['\n'], List.append_assoc ..⟩)

theorem endsItem_of_closes {early late : Text} (parts : line.commentText = early ++ ')' :: late) :
    EndsItem early := by
  rw [BlockLine.commentText] at parts
  split at parts
  case h_1 => exact absurd parts.symm (by simp)
  case h_2 comment _ =>
    obtain ⟨inner, rfl, -⟩ := Text.exists_of_append_eq (by decide) parts
    exact .inr (.inr ⟨inner, rfl⟩)

/-- What is read of a block ends at the first closing parenthesis, which a comment may hold. -/
theorem exists_subject (path : Path) {last : BlockItem} (wellFormed : ∀ line ∈ lines, line.WellFormed)
    (lastWellFormed : last.WellFormed) (back : Text) :
    ∃ subject rest, blockText lines last ++ ')' :: back = subject ++ ')' :: rest ∧ ')' ∉ subject ∧
      ∀ before, content.toList = before ++ (blockText lines last ++ ')' :: back) →
        blockModules (.ofContent .go path content) (byteLength before) (Text.lines subject) =
          reportedModules path before (lines ++ [⟨last, none⟩]) := by
  induction lines with
  | nil =>
    obtain ⟨noLineEnd, noClosing⟩ := clean_item lastWellFormed
    refine ⟨last.text, back, rfl, noClosing, fun before parts => ?_⟩
    have found := module_of_line path lastWellFormed (.inl rfl : EndsItem []) parts
    rw [List.append_nil] at found
    rw [blockModules_last noLineEnd, found, List.nil_append, reportedModules, reportedModules, ite_self,
      List.append_nil]
  | cons line lines ih =>
    obtain ⟨isLine, others⟩ := List.forall_mem_cons.mp wellFormed
    obtain ⟨noLineEnd, noClosing⟩ := clean_item isLine.item
    rw [blockText_cons]
    -- A parenthesis in the comment closes the block there. Otherwise the block goes on with the next line.
    by_cases closes : ')' ∈ line.commentText
    · obtain ⟨early, late, isComment, first⟩ := List.eq_append_cons_of_mem closes
      have commented := endsItem_of_closes isComment
      have onLine : '\n' ∉ early := fun member =>
        clean_comment isLine (isComment ▸ List.mem_append_left _ member)
      refine ⟨line.item.text ++ early, late ++ '\n' :: (blockText lines last ++ ')' :: back), ?_,
        List.not_mem_append noClosing first, fun before parts => ?_⟩
      · rw [BlockLine.text, isComment]
        simp
      · rw [BlockLine.text, List.append_assoc, List.append_assoc] at parts
        rw [blockModules_last (List.not_mem_append noLineEnd onLine),
          module_of_line path isLine.item commented parts, List.cons_append, reportedModules, if_pos closes,
          List.append_nil]
    · obtain ⟨subject, rest, isSubject, first, read⟩ := ih others
      have clean : '\n' ∉ line.text := List.not_mem_append noLineEnd (clean_comment isLine)
      refine ⟨line.text ++ '\n' :: subject, rest, ?_, ?_, fun before parts => ?_⟩
      · rw [List.append_assoc, List.cons_append, isSubject, List.append_assoc, List.cons_append]
      · rw [BlockLine.text, List.append_assoc]
        refine List.not_mem_append noClosing (List.not_mem_append closes ?_)
        rw [List.mem_cons]
        rintro (same | member)
        · exact absurd same (by decide)
        · exact first member
      · have here : content.toList = before ++ (line.item.text ++
            (line.commentText ++ '\n' :: (blockText lines last ++ ')' :: back))) := by
          rw [parts, BlockLine.text]
          simp
        have further : content.toList = (before ++ (line.text ++ ['\n'])) ++
            (blockText lines last ++ ')' :: back) := by
          rw [parts]
          simp
        rw [blockModules_cons clean, read _ further, List.cons_append, reportedModules, if_neg closes,
          BlockLine.text, List.append_assoc line.item.text,
          module_of_line path isLine.item (endsItem_comment line) here]

end Reading

end DepAtlas.Extract
