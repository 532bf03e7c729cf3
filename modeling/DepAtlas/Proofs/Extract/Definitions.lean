import Mathlib.Data.List.Nodup
import DepAtlas.Proofs.Extract.WellFormed
import DepAtlas.Proofs.Pattern.Reading

/-!
Which definitions are reported, in a language that knows one form of definition: a match at a place is,
provided that it is accepted, that no match before it reaches into it, and that none before it is a
definition of the same name.
-/

namespace DepAtlas.Extract

open Text.Cursor (between)
open Text (LineIndex byteLength)

variable {source : Source} {set : PatternSet} {hit : Hit} {found : Dependency}

theorem target_of_method? (accepted : method? source set hit = some found) :
    hit.captures.subject.map (·.toString) = some found.target := by
  obtain ⟨span, result, body, captured, -, rfl⟩ := exists_of_method? accepted
  rw [captured]
  rfl

/-- An accepted match is reported if its name is neither among those seen nor defined before it. -/
theorem mem_firstMethods {seen : List String} (accepted : method? source set hit = some found)
    (unseen : found.target ∉ seen) {earlier : List Hit}
    (fresh : ∀ other ∈ earlier, ∀ before, method? source set other = some before →
      before.target ≠ found.target) (later : List Hit) :
    found ∈ firstMethods source set seen (earlier ++ hit :: later) := by
  induction earlier generalizing seen with
  | nil =>
    obtain ⟨span, captured, named⟩ := Option.map_eq_some_iff.mp (target_of_method? accepted)
    have isNew : hit.captures.subject.any (fun name => seen.contains name.toString) = false := by
      simpa [captured, named] using unseen
    rw [List.nil_append, firstMethods, isNew, accepted]
    exact List.mem_cons_self
  | cons other earlier ih =>
    obtain ⟨here, further⟩ := List.forall_mem_cons.mp fresh
    rw [List.cons_append, firstMethods]
    split
    · exact ih unseen further
    · split
      · rename_i before isBefore
        refine List.mem_cons_of_mem _ (ih (fun member => ?_) further)
        rcases List.mem_cons.mp member with same | old
        · exact here before isBefore same.symm
        · exact unseen old
      · exact ih unseen further

section Accepted

variable {span : Text.Span} {place : DefinitionSpan}

theorem method?_eq (captured : hit.captures.subject = some span) (bare : hit.captures.result = none)
    (free : source.grammar.isKeyword span.toString = false) :
    method? source set hit =
      (source.grammar.definitionSpan? source.text hit.whole.offset span.stop).map fun place =>
        source.dependency span.toString .method span.offset (some (.method
          (returnType? source.grammar source.text hit span.offset place)
          (calledNames set source.grammar (Text.slice source.text place.bodyStart place.bodyEnd)
            span.toString))) := by
  have noResult : capturedResult? hit = none := by rw [capturedResult?, bare]
  rw [method?, captured]
  simp only [Option.bind_eq_bind, Option.bind_some, free, Bool.false_eq_true, if_false, noResult,
    Option.any_none]
  cases source.grammar.definitionSpan? source.text hit.whole.offset span.stop <;> rfl

/-- The return type is what is written after the parameters, if neither a type nor a builtin word stands
before the name. -/
theorem returnType?_eq {grammar : Grammar} {text : Text} {nameStart paramsEnd : Nat}
    (bare : hit.captures.result = none) (isEnd : place.paramsEnd = some paramsEnd)
    (before : paramsEnd < place.signatureEnd)
    (plain : builtinWord? grammar (Text.slice text hit.whole.offset nameStart) = none) :
    returnType? grammar text hit nameStart place =
      tailType? (Text.slice text (paramsEnd + 1) place.signatureEnd) := by
  have noResult : capturedResult? hit = none := by rw [capturedResult?, bare]
  rw [returnType?, noResult, isEnd, plain]
  simp [before]

end Accepted

theorem definitions_ofGrammar (grammar : Grammar) :
    (PatternSet.ofGrammar grammar .method).definitions = grammar.definitions := by
  have defining : (grammar.definitions.map (·, PatternRole.definition)).filter (·.2 == .definition) =
      grammar.definitions.map (·, PatternRole.definition) := by
    refine List.filter_eq_self.mpr fun entry member => ?_
    obtain ⟨pattern, -, rfl⟩ := List.mem_map.mp member
    rfl
  have calling : (grammar.calls.map (·, PatternRole.call)).filter (·.2 == .definition) = [] := by
    refine List.filter_eq_nil_iff.mpr fun entry member => ?_
    obtain ⟨pattern, -, rfl⟩ := List.mem_map.mp member
    exact Bool.false_ne_true
  rw [PatternSet.definitions, PatternSet.withRole, PatternSet.ofGrammar, Grammar.patterns,
    List.filter_append, defining, calling, List.append_nil, List.map_map]
  exact List.map_id _

theorem lineOf_append (front back : Text) :
    (LineIndex.ofText (front ++ back)).lineOf (byteLength front) =
      min (front.count '\n' + 1) LineIndex.maxLine := by
  rw [LineIndex.lineOf_ofText, LineIndex.feedsBelow_append]

/-- Extraction of a mask with a layer reports what the source has in the layer, in order. -/
theorem exists_extractAs_filter (language : Language) (path : Path) (content : String) {mask : LayerMask}
    {part : Layer} (included : mask.contains part = true) :
    ∃ found, extractAs .filled language path content mask = .ok found ∧
      found.filter (·.layer == part) = inLayer (.ofContent language path content) part := by
  refine ⟨_, layers_filled language path content mask.toList, ?_⟩
  rw [filter_inLayer _ (· == part)]
  have only : mask.toList.filter (· == part) = [part] := by
    rw [LayerMask.toList, List.filter_filter]
    cases part <;> simp [Layer.all, included]
  rw [only, List.flatMap_singleton]

/-- Extraction of a mask with definitions reports those of the source. -/
theorem exists_extractAs_methods (language : Language) (path : Path) (content : String) {mask : LayerMask}
    (included : mask.contains .method = true) :
    ∃ found, extractAs .filled language path content mask = .ok found ∧
      ∀ dependency, dependency ∈ found ∧ dependency.layer = .method ↔
        dependency ∈ inLayer (.ofContent language path content) .method := by
  refine ⟨_, layers_filled language path content mask.toList, fun dependency =>
    ⟨fun both => ?_, fun member => ?_⟩⟩
  · exact mem_inLayer both.1 both.2
  · refine ⟨List.mem_flatMap.mpr ⟨.method, ?_, member⟩, layer_of_mem_inLayer member⟩
    exact List.mem_filter.mpr ⟨by decide, included⟩

/-- No name is defined twice. -/
theorem eq_of_mem_inLayer {source : Source} {first second : Dependency}
    (isFirst : first ∈ inLayer source .method) (isSecond : second ∈ inLayer source .method)
    (same : first.target = second.target) : first = second :=
  List.inj_on_of_nodup_map (nodup_firstMethods [] _) isFirst isSecond same

section Reported

variable {language : Language} {path : Path} {content : String} {pattern : Pattern}
  {front back : Text} (only : language.grammar.definitions = [pattern])

include only

theorem inLayer_method_eq : inLayer (.ofContent language path content) .method =
    firstMethods (.ofContent language path content) (.ofGrammar language.grammar .method) []
      (pattern.hits content.toList) := by
  change methods _ (.ofGrammar language.grammar .method) = _
  rw [methods, definitions_ofGrammar, only, List.flatMap_singleton]
  rfl

/-- What is reported was accepted, and its match begins at a place of the text. -/
theorem exists_hitAt_of_mem_inLayer
    (member : found ∈ inLayer (.ofContent language path content) .method) :
    ∃ front back hit, content.toList = front ++ back ∧ pattern.hitAt (between front back) = some hit ∧
      method? (.ofContent language path content) (.ofGrammar language.grammar .method) hit =
        some found := by
  rw [inLayer_method_eq only] at member
  obtain ⟨-, hit, isHit, accepted⟩ := exists_of_mem_firstMethods member
  obtain ⟨front, back, parts, isFound⟩ := Pattern.exists_of_mem_hits isHit
  exact ⟨front, back, hit, parts, isFound, accepted⟩

/-- A definition on the first line is a match at the start of the text. -/
theorem hitAt_of_first_line (anchored : pattern.anchored = true)
    (member : found ∈ inLayer (.ofContent language path content) .method) (first : found.line = 1) :
    ∃ hit, pattern.hitAt (between [] content.toList) = some hit ∧
      method? (.ofContent language path content) (.ofGrammar language.grammar .method) hit =
        some found := by
  obtain ⟨front, back, hit, parts, isFound, accepted⟩ := exists_hitAt_of_mem_inLayer only member
  obtain ⟨span, result, body, captured, -, whole⟩ := exists_of_method? accepted
  obtain ⟨passed, name, rest, rfl, isName⟩ := (Pattern.stretch_of_hitAt isFound).2 span captured
  have line : (LineIndex.ofText content.toList).lineOf span.offset = 1 := by
    rw [← first, whole]
    rfl
  rw [Text.Span.offset, isName, parts, ← List.append_assoc, Text.Cursor.offset_between, lineOf_append,
    List.count_append, LineIndex.maxLine] at line
  rcases Pattern.lineStart_of_hitAt anchored isFound with rfl | ⟨lines, rfl⟩
  · exact ⟨hit, parts ▸ isFound, accepted⟩
  · rw [List.count_append, List.count_singleton_self] at line
    omega

/-- An accepted match is reported if none before it reaches into it or defines the same name. -/
theorem mem_inLayer_of_hitAt (parts : content.toList = front ++ back)
    (isHit : pattern.hitAt (between front back) = some hit)
    (accepted : method? (.ofContent language path content) (.ofGrammar language.grammar .method) hit =
      some found)
    (apart : ∀ before after other, front = before ++ after → after ≠ [] →
      pattern.hitAt (between before (after ++ back)) = some other →
        other.whole.stop ≤ byteLength front ∧
          other.captures.subject.map (·.toString) ≠ some found.target) :
    found ∈ inLayer (.ofContent language path content) .method := by
  obtain ⟨earlier, later, hits, begins⟩ := Pattern.exists_hits_of_hitAt isHit
    fun before after other whole filled isOther => (apart before after other whole filled isOther).1
  rw [inLayer_method_eq only, parts, hits]
  refine mem_firstMethods accepted List.not_mem_nil (fun other member before isBefore same => ?_) later
  obtain ⟨start, after, whole, filled, isOther⟩ := begins other member
  apply (apart start after other whole filled isOther).2
  rw [target_of_method? isBefore, same]

end Reported

end DepAtlas.Extract
