import Mathlib.Data.Nat.Basic
import Mathlib.Order.Monotone.Defs
import DepAtlas.Proofs.Extract.ImportLines
import DepAtlas.Proofs.Extract.Places

/-!
The lines that are told of dependencies. A dependency is read from a stretch of its source, which a pattern
captured or which is quoted on a line of an import block, and its line is the one on which the stretch begins.
-/

namespace DepAtlas.Extract

open Text (LineIndex byteLength)
open Text.LineIndex (feedsBelow StartsLine)

/-- The match that a dependency was made of, by the offset and the text of the stretch that names it. -/
inductive ReadFrom (source : Source) (set : PatternSet) : Dependency → Nat → Text → Prop
  /-- An import statement names a module. -/
  | statement {pattern : Pattern} {role : PatternRole} {hit : Hit} {span : Text.Span}
      {dependency : Dependency} (listed : (pattern, role) ∈ set.patterns)
      (matched : hit ∈ pattern.hits source.text) (isSubject : hit.captures.subject = some span)
      (reports : moduleAt? source span.text span.offset = some dependency) :
      ReadFrom source set dependency span.offset span.text
  /-- A line of an import block quotes a module. -/
  | quoted {block : Pattern} {hit : Hit} {span : Text.Span} {before after : List Text} {line name : Text}
      {inner : Nat} {dependency : Dependency} (isBlock : set.importBlock = some block)
      (matched : hit ∈ block.hits source.text) (isSubject : hit.captures.subject = some span)
      (onLine : Text.lines span.text = before ++ line :: after)
      (isQuoted : quotedImport? line = some (inner, name))
      (reports : moduleAt? source name (span.offset + byteLength before.flatten + inner) = some dependency) :
      ReadFrom source set dependency (span.offset + byteLength before.flatten + inner) name
  /-- A declaration names a type. -/
  | declaration {pattern : Pattern} {role : PatternRole} {hit : Hit} {span : Text.Span} {word : String}
      {base : Option String} (listed : (pattern, role) ∈ set.patterns)
      (matched : hit ∈ pattern.hits source.text) (isSubject : hit.captures.subject = some span)
      (declares : declaration? hit = some (⟨span.toString, word, base⟩, span.offset)) :
      ReadFrom source set (source.dependency span.toString .struct span.offset (some (.struct word base)))
        span.offset span.text
  /-- A definition names a method. -/
  | definition {pattern : Pattern} {hit : Hit} {span : Text.Span} {dependency : Dependency}
      (listed : pattern ∈ set.definitions) (matched : hit ∈ pattern.hits source.text)
      (isSubject : hit.captures.subject = some span)
      (accepts : method? source set hit = some dependency) :
      ReadFrom source set dependency span.offset span.text

/-- The name that a stretch gives to a dependency of a layer. A module is named without the quotation marks and
separators around it. -/
def named? (language : Language) (name : Text) : Layer → Option String
  | .module => language.moduleName? name
  | .struct | .method => some (String.ofList name)

section Stretches

variable {source : Source} {set : PatternSet} {dependency : Dependency} {offset : Nat} {name : Text}

theorem exists_of_subject {pattern : Pattern} {hit : Hit} {span : Text.Span}
    (matched : hit ∈ pattern.hits source.text) (isSubject : hit.captures.subject = some span) :
    ∃ front back, source.text = front ++ (span.text ++ back) ∧ span.offset = byteLength front := by
  obtain ⟨front, back, parts, found⟩ := Pattern.exists_of_mem_hits matched
  obtain ⟨passed, inside, rest, rfl, rfl⟩ := (Pattern.stretch_of_hitAt found).2 span isSubject
  refine ⟨front ++ passed, rest, ?_, rfl⟩
  rw [Text.Span.text_between, parts, List.append_assoc]

theorem exists_of_quotedImport? {line : Text} {inner : Nat} (isQuoted : quotedImport? line = some (inner, name)) :
    ∃ front back, line = front ++ (name ++ back) ∧ inner = byteLength front := by
  obtain ⟨comment, parts⟩ := Text.before_isPrefix commentMark line
  rw [quotedImport?_of_before rfl] at isQuoted
  obtain ⟨opening, opens, isQuoted⟩ := Option.bind_eq_some_iff.mp isQuoted
  obtain ⟨closing, closes, isQuoted⟩ := Option.bind_eq_some_iff.mp isQuoted
  obtain ⟨label, c, code, isCode, rfl, isQuote, -⟩ := Text.exists_of_findWhere? opens
  obtain rfl := beq_iff_eq.mp isQuote
  rw [isCode, Text.Utf8.dropBytes_after (by decide)] at closes isQuoted
  obtain ⟨path, d, rest, rfl, rfl, -, -⟩ := Text.exists_of_findWhere? closes
  rw [Text.takeBytes_byteLength_append] at isQuoted
  cases isQuoted
  refine ⟨label ++ ['"'], d :: rest ++ comment, ?_, ?_⟩
  · rw [← parts, isCode]
    simp
  · rw [Text.byteLength_append]
    rfl

theorem exists_of_mem_blockModules {lines : List Text}
    (member : dependency ∈ blockModules source offset lines) :
    ∃ before line after inner name, lines = before ++ line :: after ∧
      quotedImport? line = some (inner, name) ∧
      moduleAt? source name (offset + byteLength before.flatten + inner) = some dependency := by
  induction lines generalizing offset with
  | nil => cases member
  | cons line lines ih =>
    rw [blockModules] at member
    rcases List.mem_append.mp member with member | member
    · obtain ⟨⟨inner, name⟩, isQuoted, reports⟩ := Option.bind_eq_some_iff.mp (Option.mem_toList.mp member)
      exact ⟨[], line, lines, inner, name, rfl, isQuoted, reports⟩
    · obtain ⟨before, other, after, inner, name, rfl, isQuoted, reports⟩ := ih member
      refine ⟨line :: before, other, after, inner, name, rfl, isQuoted, ?_⟩
      rwa [List.flatten_cons, Text.byteLength_append, ← Nat.add_assoc]

theorem exists_of_mem_modules (member : dependency ∈ modules source set) :
    ∃ offset name, ReadFrom source set dependency offset name := by
  rcases List.mem_append.mp member with member | member
  · obtain ⟨⟨pattern, role⟩, listed, member⟩ := List.mem_flatMap.mp member
    obtain ⟨hit, matched, found⟩ := List.mem_filterMap.mp member
    obtain ⟨span, isSubject, reports⟩ := Option.bind_eq_some_iff.mp found
    exact ⟨_, _, .statement listed matched isSubject reports⟩
  · rw [groupedModules] at member
    split at member
    case h_2 => cases member
    case h_1 block isBlock =>
      split at member
      case isFalse => cases member
      case isTrue =>
        obtain ⟨hit, matched, member⟩ := List.mem_flatMap.mp member
        split at member
        case h_2 => cases member
        case h_1 span isSubject =>
          obtain ⟨before, line, after, inner, name, onLine, isQuoted, reports⟩ :=
            exists_of_mem_blockModules member
          exact ⟨_, _, .quoted isBlock matched isSubject onLine isQuoted reports⟩

theorem exists_readFrom_of_mem_layer {store : PatternStore} {part : Layer} {found : List Dependency}
    (extracts : layer store source part = .ok found) (member : dependency ∈ found) :
    ∃ set, store.find? source.language part = some set ∧
      ∃ offset name, ReadFrom source set dependency offset name := by
  rw [layer, Source.patterns] at extracts
  cases isSet : store.find? source.language part with
  | none =>
    rw [isSet] at extracts
    cases extracts
  | some set =>
    rw [isSet] at extracts
    cases part with
    | module =>
      cases extracts
      exact ⟨set, rfl, exists_of_mem_modules member⟩
    | struct =>
      cases extracts
      obtain ⟨span, word, base, rfl, -, entry, listed, hit, matched, isSubject, declares⟩ :=
        exists_of_mem_structures member
      exact ⟨set, rfl, _, _, .declaration listed matched isSubject declares⟩
    | method =>
      cases extracts
      obtain ⟨-, hit, among, accepts⟩ := exists_of_mem_firstMethods member
      obtain ⟨pattern, listed, matched⟩ := List.mem_flatMap.mp among
      obtain ⟨span, result, body, isSubject, -, rfl⟩ := exists_of_method? accepts
      exact ⟨set, rfl, _, _, .definition listed matched isSubject accepts⟩

theorem exists_readFrom {store : PatternStore} {parts : List Layer} {found : List Dependency}
    (extracts : layers store source parts = .ok found) (member : dependency ∈ found) :
    ∃ set, store.find? source.language dependency.layer = some set ∧
      ∃ offset name, ReadFrom source set dependency offset name := by
  obtain ⟨part, here, isLayer, member⟩ := exists_layer_of_mem_layers extracts member
  have readFrom := exists_readFrom_of_mem_layer isLayer member
  obtain ⟨target, offset, detail, rfl⟩ := exists_of_mem_layer isLayer member
  exact readFrom

theorem exists_of_moduleAt? {raw : Text} (reports : moduleAt? source raw offset = some dependency) :
    ∃ target, dependency = source.dependency target .module offset none ∧
      source.language.moduleName? raw = some target := by
  rw [moduleAt?_eq] at reports
  obtain ⟨target, isTarget, rfl⟩ := Option.map_eq_some_iff.mp reports
  exact ⟨target, rfl, (Option.filter_eq_some_iff.mp isTarget).1⟩

namespace ReadFrom

/-- The dependency is a record of its source at the offset. -/
theorem exists_eq_dependency (readFrom : ReadFrom source set dependency offset name) :
    ∃ target part detail, dependency = source.dependency target part offset detail ∧
      named? source.language name part = some target := by
  cases readFrom with
  | statement _ _ _ reports | quoted _ _ _ _ _ reports =>
    obtain ⟨target, rfl, isName⟩ := exists_of_moduleAt? reports
    exact ⟨target, _, _, rfl, isName⟩
  | declaration => exact ⟨_, _, _, rfl, rfl⟩
  | definition _ _ isSubject accepts =>
    obtain ⟨other, result, body, isOther, -, rfl⟩ := exists_of_method? accepts
    obtain rfl := Option.some.inj (isSubject.symm.trans isOther)
    exact ⟨_, _, _, rfl, rfl⟩

theorem stands (readFrom : ReadFrom source set dependency offset name) :
    ∃ front back, source.text = front ++ (name ++ back) ∧ offset = byteLength front := by
  cases readFrom with
  | statement _ matched isSubject | declaration _ matched isSubject | definition _ matched isSubject =>
    exact exists_of_subject matched isSubject
  | @quoted block hit span before after line _ _ _ _ matched isSubject onLine isQuoted =>
    obtain ⟨front, back, parts, begins⟩ := exists_of_subject matched isSubject
    obtain ⟨label, rest, isLine, rfl⟩ := exists_of_quotedImport? isQuoted
    have whole := DefinitionSpan.flatten_of_hasLines (Text.hasLines_lines span.text)
    rw [onLine, List.flatten_append, List.flatten_cons, isLine] at whole
    refine ⟨front ++ before.flatten ++ label, rest ++ after.flatten ++ back, ?_, ?_⟩
    · rw [parts, whole]
      simp
    · rw [begins, Text.byteLength_append, Text.byteLength_append]

end ReadFrom

end Stretches

theorem language_ofContent (language : Language) (path : Path) (content : String) :
    (Source.ofContent language path content).language = language := by
  cases language <;> rfl

/-- The line of an offset is one more than the number of line feeds below it, and starts after the last of these.
So line numbers increase with the offset, and each dependency stands on the line on which its name begins. -/
theorem lines_count_line_feeds (content : String) (few : content.toList.count '\n' < LineIndex.maxLine) :
    let text := content.toList
    let index := LineIndex.ofText text
    (∀ offset, index.lineOf offset = 1 + feedsBelow text offset ∧
        StartsLine text offset (index.lineStart offset) ∧
        index.search offset 0 index.starts.size (Nat.le_refl _) ≠ .missing 0 ∧
        index.starts[index.lineAt offset]? = some (index.lineStart offset)) ∧
      Monotone index.lineOf ∧
      ∀ store language path mask found, extractAs store language path content mask = .ok found →
        ∀ dependency ∈ found, ∃ set, store.find? language dependency.layer = some set ∧
          ∃ offset name, ReadFrom (.ofContent language path content) set dependency offset name ∧
            (∃ front back, text = front ++ (name ++ back) ∧ offset = byteLength front) ∧
            named? language name dependency.layer = some dependency.target ∧
            dependency.line = 1 + feedsBelow text offset := by
  have counted (offset : Nat) :
      (LineIndex.ofText content.toList).lineOf offset = 1 + feedsBelow content.toList offset := by
    have below := LineIndex.feedsBelow_le content.toList offset
    rw [LineIndex.lineOf_ofText]
    omega
  have sorted := LineIndex.sorted_ofText content.toList
  refine ⟨fun offset => ⟨counted offset, LineIndex.startsLine_lineStart _ _,
      sorted.search_ne_missing_zero offset, (sorted.lineStart_spec offset).1⟩,
    fun _ _ ordered => LineIndex.lineOf_mono _ _ ordered, ?_⟩
  intro store language path mask found extracts dependency member
  obtain ⟨set, isSet, offset, name, readFrom⟩ := exists_readFrom extracts member
  obtain ⟨target, part, detail, rfl, isName⟩ := readFrom.exists_eq_dependency
  rw [language_ofContent] at isSet isName
  exact ⟨set, isSet, offset, name, readFrom, readFrom.stands, isName, counted offset⟩

/-- A source with a character of two bytes in a comment of its import block. -/
def commentedSource : String :=
  "package p\n\nimport (\n\t\"acme/box\" // \u00e9\n)\n\nfunc Run() \x7b\n\x7d\n"

theorem lines_count_line_feeds_commented :
    commentedSource.toList.count '\n' < LineIndex.maxLine ∧
      (LineIndex.ofText commentedSource.toList).lineOf 36 = 4 ∧
      StartsLine commentedSource.toList 36 20 ∧
      (LineIndex.ofText commentedSource.toList).lineOf 1000 = 9 ∧
      ∃ found, extractAs .filled .go ⟨"p.go"⟩ commentedSource .all = .ok found ∧
        found.map (fun dependency => (dependency.target, dependency.line)) = [("acme/box", 4), ("Run", 7)] ∧
        ∀ dependency ∈ found, ∃ offset front name back,
          commentedSource.toList = front ++ (name ++ back) ∧ offset = byteLength front ∧
            named? .go name dependency.layer = some dependency.target ∧
            dependency.line = 1 + feedsBelow commentedSource.toList offset := by
  have few : commentedSource.toList.count '\n' < LineIndex.maxLine := by decide
  have inside : feedsBelow commentedSource.toList 36 = 3 := by decide +kernel
  have beyond : feedsBelow commentedSource.toList 1000 = 8 := by decide +kernel
  have start : (LineIndex.ofText commentedSource.toList).lineStart 36 = 20 := by decide +kernel
  have extracts := layers_filled .go ⟨"p.go"⟩ commentedSource LayerMask.all.toList
  obtain ⟨lines, -, recorded⟩ := lines_count_line_feeds commentedSource few
  obtain ⟨isLine, starts, -⟩ := lines 36
  refine ⟨few, isLine.trans (by rw [inside]), start ▸ starts, (lines 1000).1.trans (by rw [beyond]), _, extracts,
    by decide +kernel, fun dependency member => ?_⟩
  obtain ⟨-, -, offset, name, -, ⟨front, back, parts, begins⟩, isName, line⟩ :=
    recorded _ _ _ _ _ extracts dependency member
  exact ⟨offset, front, name, back, parts, begins, isName, line⟩

end DepAtlas.Extract
