import DepAtlas.Extract
import DepAtlas.Proofs.Pattern.Confinement
import DepAtlas.Proofs.Text.Lines

/-!
What extraction yields is well formed whatever the content is: the layers stand in order, names are not
repeated, reserved words and library modules are left out, and declared and defined names stand on the
line that is given for them.
-/

namespace DepAtlas

open Text (LineIndex)

/-- The name of a dependency stands on its line of a content. Line numbers end at a largest one, which
stands for all lines from there on. -/
def Dependency.StandsIn (dependency : Dependency) (content : String) : Prop :=
  ∃ number line, dependency.line = min (number + 1) LineIndex.maxLine ∧
    (Text.lineTexts content.toList)[number]? = some line ∧ dependency.target.toList <:+: line

namespace Extract

/-- What is promised of the dependencies found in a content. -/
structure WellFormed (grammar : Grammar) (content : String) (dependencies : List Dependency) : Prop where
  /-- Imports stand before declarations, and these before definitions. -/
  layered : dependencies.Pairwise fun a b => Layer.all.idxOf a.layer ≤ Layer.all.idxOf b.layer
  modules : ∀ dependency ∈ dependencies, dependency.layer = .module →
    dependency.target ≠ "" ∧ grammar.isLibrary dependency.target = false ∧
      (grammar.skipRelativeImports = true →
        dependency.target.toList.head? ≠ some '.' ∧ dependency.target.toList.head? ≠ some '/')
  structures : ∀ dependency ∈ dependencies, dependency.layer = .struct →
    dependency.target ≠ "" ∧ ∃ word base, dependency.detail = some (.struct word base)
  /-- No declaration has the name, the declaring word and the parent type of another one. -/
  declaredOnce : (dependencies.filter (·.layer == .struct)).Pairwise fun a b =>
    (a.target, a.detail) ≠ (b.target, b.detail)
  methods : ∀ dependency ∈ dependencies, dependency.layer = .method →
    grammar.isKeyword dependency.target = false ∧ dependency.calls.Nodup ∧
      dependency.target ∉ dependency.calls ∧
      ∀ call ∈ dependency.calls, grammar.isKeyword call = false
  definedOnce : ((dependencies.filter (·.layer == .method)).map (·.target)).Nodup
  numbered : ∀ dependency ∈ dependencies,
    1 ≤ dependency.line ∧ dependency.line ≤ content.toList.count '\n' + 1
  placed : ∀ dependency ∈ dependencies, dependency.layer ≠ .module → dependency.StandsIn content

theorem WellFormed.sublist {grammar : Grammar} {content : String} {dependencies fewer : List Dependency}
    (wellFormed : WellFormed grammar content dependencies) (sublist : fewer.Sublist dependencies) :
    WellFormed grammar content fewer where
  layered := wellFormed.layered.sublist sublist
  modules dependency member := wellFormed.modules dependency (sublist.subset member)
  structures dependency member := wellFormed.structures dependency (sublist.subset member)
  declaredOnce := wellFormed.declaredOnce.sublist (sublist.filter _)
  methods dependency member := wellFormed.methods dependency (sublist.subset member)
  definedOnce := wellFormed.definedOnce.sublist ((sublist.filter _).map _)
  numbered dependency member := wellFormed.numbered dependency (sublist.subset member)
  placed dependency member := wellFormed.placed dependency (sublist.subset member)

end Extract

namespace Source

variable {language : Language} {path : Path} {content : String}

theorem numbered_dependency (target : String) (layer : Layer) (offset : Nat) (detail : Option Detail) :
    let dependency := (ofContent language path content).dependency target layer offset detail
    1 ≤ dependency.line ∧ dependency.line ≤ content.toList.count '\n' + 1 :=
  ⟨LineIndex.lineOf_pos _ _, LineIndex.lineOf_le _ _⟩

/-- A captured name within a line stands on the line of its offset. -/
theorem standsIn_dependency {span : Text.Span} (onLine : span.OnLine content.toList) (layer : Layer)
    (detail : Option Detail) :
    ((ofContent language path content).dependency span.toString layer span.offset detail).StandsIn
      content := by
  obtain ⟨front, back, whole, offset, clean⟩ := onLine.exists_parts
  obtain ⟨line, found, inLine⟩ := Text.infix_lineTexts front clean back
  refine ⟨front.count '\n', line, ?_, whole ▸ found, ?_⟩
  · change (LineIndex.ofText content.toList).lineOf span.offset = _
    rw [LineIndex.lineOf_ofText, whole, List.append_assoc, offset, LineIndex.feedsBelow_append]
  · change (String.ofList span.text).toList <:+: line
    rw [String.toList_ofList]
    exact inLine

theorem patterns_filled (layer : Layer) :
    (ofContent language path content).patterns .filled layer =
      .ok (.ofGrammar language.grammar layer) := by
  cases language <;> cases layer <;> rfl

end Source

namespace Extract

section Modules

variable {source : Source} {set : PatternSet} {dependency : Dependency}

/-- A dependency on a named module that is not left out. -/
def Reports (source : Source) (dependency : Dependency) : Prop :=
  ∃ name offset, dependency = source.dependency name .module offset none ∧ name ≠ "" ∧
    keepsModule source.grammar name = true

theorem moduleName?_ne_empty {language : Language} {raw : Text} {name : String}
    (named : language.moduleName? raw = some name) : name ≠ "" := by
  rw [Language.moduleName?] at named
  split at named
  · cases named
  · rename_i left
    cases named
    exact fun empty => left (String.ofList_eq_empty_iff.mp empty)

theorem of_keepsModule {grammar : Grammar} {name : String} (keeps : keepsModule grammar name = true) :
    grammar.isLibrary name = false ∧ (grammar.skipRelativeImports = true →
      name.toList.head? ≠ some '.' ∧ name.toList.head? ≠ some '/') := by
  simp only [keepsModule, Bool.and_eq_true, Bool.not_eq_true'] at keeps
  refine ⟨keeps.2, fun skips => ?_⟩
  simpa [skips] using keeps.1

theorem reports_of_moduleAt? {raw : Text} {offset : Nat}
    (found : moduleAt? source raw offset = some dependency) : Reports source dependency := by
  rw [moduleAt?] at found
  split at found
  · cases found
  · rename_i name named
    split at found
    · rename_i keeps
      cases found
      exact ⟨name, offset, rfl, moduleName?_ne_empty named, keeps⟩
    · cases found

theorem reports_of_mem_blockModules {offset : Nat} {lines : List Text}
    (member : dependency ∈ blockModules source offset lines) : Reports source dependency := by
  induction lines generalizing offset with
  | nil => cases member
  | cons line lines ih =>
    rw [blockModules] at member
    rcases List.mem_append.mp member with member | member
    · obtain ⟨quoted, -, found⟩ := Option.bind_eq_some_iff.mp (Option.mem_toList.mp member)
      exact reports_of_moduleAt? found
    · exact ih member

theorem reports_of_mem_modules (member : dependency ∈ modules source set) :
    Reports source dependency := by
  rcases List.mem_append.mp member with member | member
  · obtain ⟨entry, -, member⟩ := List.mem_flatMap.mp member
    obtain ⟨hit, -, found⟩ := List.mem_filterMap.mp member
    obtain ⟨span, -, found⟩ := Option.bind_eq_some_iff.mp found
    exact reports_of_moduleAt? found
  · rw [groupedModules] at member
    split at member
    · split at member
      · obtain ⟨hit, -, member⟩ := List.mem_flatMap.mp member
        split at member
        · exact reports_of_mem_blockModules member
        · cases member
      · cases member
    · cases member

end Modules

section Firsts

variable {α β : Type} [BEq β] [LawfulBEq β] {key : α → β}

/-- The first entry of each key that is not among those seen. -/
def firstOf (key : α → β) (seen : List β) : List α → List α
  | [] => []
  | entry :: rest =>
    if seen.contains (key entry) then firstOf key seen rest
    else entry :: firstOf key (key entry :: seen) rest

theorem disjoint_firstOf (seen : List β) (entries : List α) :
    ∀ entry ∈ firstOf key seen entries, key entry ∉ seen := by
  induction entries generalizing seen with
  | nil => simp [firstOf]
  | cons entry rest ih =>
    intro kept member
    rw [firstOf] at member
    split at member
    · exact ih seen kept member
    · rename_i fresh
      rcases List.mem_cons.mp member with rfl | member
      · simpa using fresh
      · exact fun old => ih _ kept member (List.mem_cons_of_mem _ old)

theorem nodup_firstOf (seen : List β) (entries : List α) :
    ((firstOf key seen entries).map key).Nodup := by
  induction entries generalizing seen with
  | nil => simp [firstOf]
  | cons entry rest ih =>
    rw [firstOf]
    split
    · exact ih seen
    · refine List.nodup_cons.mpr ⟨?_, ih _⟩
      intro again
      obtain ⟨kept, member, same⟩ := List.mem_map.mp again
      exact disjoint_firstOf _ _ kept member (same ▸ List.mem_cons_self)

omit [LawfulBEq β] in
theorem firstOf_sublist (seen : List β) (entries : List α) :
    (firstOf key seen entries).Sublist entries := by
  induction entries generalizing seen with
  | nil => exact .slnil
  | cons entry rest ih =>
    rw [firstOf]
    split
    · exact (ih seen).cons entry
    · exact (ih _).cons_cons entry

theorem firstDeclarations_eq (seen : List Declaration) (found : List (Declaration × Nat)) :
    firstDeclarations seen found = firstOf (·.1) seen found := by
  induction found generalizing seen with
  | nil => rfl
  | cons entry rest ih => rw [firstDeclarations, firstOf, ih, ih]

theorem firstNames_eq (seen names : List String) : firstNames seen names = firstOf id seen names := by
  induction names generalizing seen with
  | nil => rfl
  | cons name rest ih =>
    rw [firstNames, firstOf, ih, ih]
    rfl

end Firsts

section Structures

variable {source : Source} {set : PatternSet}

/-- A declared type has a name, which one of the patterns captured. -/
theorem exists_of_mem_structures {dependency : Dependency}
    (member : dependency ∈ structures source set) :
    ∃ span word base, dependency =
        source.dependency span.toString .struct span.offset (some (.struct word base)) ∧
      span.text ≠ [] ∧ ∃ entry ∈ set.patterns, ∃ hit ∈ entry.1.hits source.text,
        hit.captures.subject = some span ∧
          declaration? hit = some (⟨span.toString, word, base⟩, span.offset) := by
  obtain ⟨kept, among, rfl⟩ := List.mem_map.mp member
  obtain ⟨entry, pattern, among⟩ := List.mem_flatMap.mp
    ((firstOf_sublist _ _).subset (firstDeclarations_eq _ _ ▸ among))
  obtain ⟨hit, matched, declared⟩ := List.mem_filterMap.mp among
  have isDeclared := declared
  rw [declaration?] at declared
  split at declared
  · rename_i span captured
    split at declared
    · cases declared
    · rename_i named
      cases declared
      exact ⟨span, _, _, rfl, by simpa using named, entry, pattern, hit, matched, captured, isDeclared⟩
  · cases declared

theorem pairwise_structures :
    (structures source set).Pairwise fun a b => (a.target, a.detail) ≠ (b.target, b.detail) := by
  refine List.pairwise_map.mpr ?_
  refine (List.pairwise_map.mp (firstDeclarations_eq _ _ ▸ nodup_firstOf [] _)).imp ?_
  rintro ⟨⟨name, word, base⟩, offset⟩ ⟨⟨name', word', base'⟩, offset'⟩ distinct same
  apply distinct
  simpa [Source.dependency] using same

end Structures

section Methods

variable {source : Source} {set : PatternSet}

theorem nodup_firstNames (names : List String) : (firstNames [] names).Nodup := by
  rw [firstNames_eq, ← List.map_id (firstOf id [] names)]
  exact nodup_firstOf [] names

theorem of_mem_calledNames {grammar : Grammar} {body : Text} {ownName call : String}
    (member : call ∈ calledNames set grammar body ownName) :
    call ≠ ownName ∧ grammar.isKeyword call = false := by
  rw [calledNames, firstNames_eq] at member
  have kept := (List.mem_filter.mp ((firstOf_sublist _ _).subset member)).2
  simpa using kept

/-- What an accepted match stands for: a captured name that is not reserved, with the calls of a body. -/
theorem exists_of_method? {hit : Hit} {dependency : Dependency}
    (accepted : method? source set hit = some dependency) :
    ∃ span result body, hit.captures.subject = some span ∧
      source.grammar.isKeyword span.toString = false ∧
      dependency = source.dependency span.toString .method span.offset
        (some (.method result (calledNames set source.grammar body span.toString))) := by
  rw [method?] at accepted
  obtain ⟨span, captured, accepted⟩ := Option.bind_eq_some_iff.mp accepted
  by_cases keyword : source.grammar.isKeyword span.toString
  · simp [keyword] at accepted
  by_cases reserved : (capturedResult? hit).any source.grammar.isKeyword
  · simp [keyword, reserved] at accepted
  simp only [keyword, reserved] at accepted
  obtain ⟨place, -, accepted⟩ := Option.bind_eq_some_iff.mp accepted
  exact ⟨span, _, _, captured, by simpa using keyword, (Option.some.inj accepted).symm⟩

theorem exists_of_mem_firstMethods {seen : List String} {hits : List Hit} {dependency : Dependency}
    (member : dependency ∈ firstMethods source set seen hits) :
    dependency.target ∉ seen ∧ ∃ hit ∈ hits, method? source set hit = some dependency := by
  induction hits generalizing seen with
  | nil => cases member
  | cons hit hits ih =>
    rw [firstMethods] at member
    split at member
    · obtain ⟨fresh, hit, among, accepted⟩ := ih member
      exact ⟨fresh, hit, List.mem_cons_of_mem _ among, accepted⟩
    · rename_i unseen
      split at member
      · rename_i found accepted
        rcases List.mem_cons.mp member with rfl | member
        · refine ⟨?_, hit, List.mem_cons_self, accepted⟩
          obtain ⟨span, result, body, captured, -, rfl⟩ := exists_of_method? accepted
          simpa [captured, Source.dependency] using unseen
        · obtain ⟨fresh, hit, among, accepted⟩ := ih member
          exact ⟨fun old => fresh (List.mem_cons_of_mem _ old), hit, List.mem_cons_of_mem _ among,
            accepted⟩
      · obtain ⟨fresh, hit, among, accepted⟩ := ih member
        exact ⟨fresh, hit, List.mem_cons_of_mem _ among, accepted⟩

theorem nodup_firstMethods (seen : List String) (hits : List Hit) :
    ((firstMethods source set seen hits).map (·.target)).Nodup := by
  induction hits generalizing seen with
  | nil => simp [firstMethods]
  | cons hit hits ih =>
    rw [firstMethods]
    split
    · exact ih seen
    · split
      · refine List.nodup_cons.mpr ⟨?_, ih _⟩
        intro again
        obtain ⟨later, member, same⟩ := List.mem_map.mp again
        exact (exists_of_mem_firstMethods member).1 (same ▸ List.mem_cons_self)
      · exact ih seen

/-- A defined method has a name that is not reserved, which one of the patterns captured, and the calls of
a body. -/
theorem exists_of_mem_methods {dependency : Dependency} (member : dependency ∈ methods source set) :
    ∃ span result body, dependency = source.dependency span.toString .method span.offset
        (some (.method result (calledNames set source.grammar body span.toString))) ∧
      source.grammar.isKeyword span.toString = false ∧
      ∃ pattern ∈ set.definitions, ∃ hit ∈ pattern.hits source.text,
        hit.captures.subject = some span := by
  obtain ⟨-, hit, among, accepted⟩ := exists_of_mem_firstMethods member
  obtain ⟨pattern, listed, matched⟩ := List.mem_flatMap.mp among
  obtain ⟨span, result, body, captured, free, whole⟩ := exists_of_method? accepted
  exact ⟨span, result, body, whole, free, pattern, listed, hit, matched, captured⟩

end Methods

section Layers

variable {store : PatternStore} {source : Source} {found : List Dependency} {dependency : Dependency}

/-- What is extracted for a layer are records of the source for that layer. -/
theorem exists_of_mem_layer {part : Layer} (extracted : layer store source part = .ok found)
    (member : dependency ∈ found) :
    ∃ target offset detail, dependency = source.dependency target part offset detail := by
  unfold layer at extracted
  cases isSet : source.patterns store part with
  | error cause =>
    rw [isSet] at extracted
    cases extracted
  | ok set =>
    rw [isSet] at extracted
    cases part with
    | module =>
      cases extracted
      obtain ⟨target, offset, whole, -⟩ := reports_of_mem_modules member
      exact ⟨target, offset, none, whole⟩
    | struct =>
      cases extracted
      obtain ⟨span, word, base, whole, -⟩ := exists_of_mem_structures member
      exact ⟨_, _, _, whole⟩
    | method =>
      cases extracted
      obtain ⟨span, result, body, whole, -⟩ := exists_of_mem_methods member
      exact ⟨_, _, _, whole⟩

theorem exists_layer_of_mem_layers {parts : List Layer} (extracted : layers store source parts = .ok found)
    (member : dependency ∈ found) : ∃ part here, layer store source part = .ok here ∧ dependency ∈ here := by
  induction parts generalizing found with
  | nil =>
    cases extracted
    cases member
  | cons part parts ih =>
    rw [layers] at extracted
    cases first : layer store source part with
    | error cause =>
      rw [first] at extracted
      cases extracted
    | ok here =>
      cases others : layers store source parts with
      | error cause =>
        rw [first, others] at extracted
        cases extracted
      | ok more =>
        rw [first, others] at extracted
        cases extracted
        rcases List.mem_append.mp member with member | member
        · exact ⟨part, here, first, member⟩
        · exact ih others member

end Layers

/-- The dependencies of a layer under the patterns of the language. -/
def inLayer (source : Source) : Layer → List Dependency
  | .module => modules source (.ofGrammar source.grammar .module)
  | .struct => structures source (.ofGrammar source.grammar .struct)
  | .method => methods source (.ofGrammar source.grammar .method)

theorem layer_of_mem_inLayer {source : Source} {part : Layer} {dependency : Dependency}
    (member : dependency ∈ inLayer source part) : dependency.layer = part := by
  cases part with
  | module =>
    obtain ⟨name, offset, rfl, -⟩ := reports_of_mem_modules member
    rfl
  | struct =>
    obtain ⟨span, word, base, rfl, -⟩ := exists_of_mem_structures member
    rfl
  | method =>
    obtain ⟨span, result, body, rfl, -⟩ := exists_of_mem_methods member
    rfl

/-- Dependencies chosen by their layer are those of the chosen layers. -/
theorem filter_inLayer (source : Source) (chooses : Layer → Bool) (parts : List Layer) :
    (parts.flatMap (inLayer source)).filter (fun dependency => chooses dependency.layer) =
      (parts.filter chooses).flatMap (inLayer source) := by
  induction parts with
  | nil => rfl
  | cons part parts ih =>
    rw [List.flatMap_cons, List.filter_append, ih]
    cases chosen : chooses part with
    | true =>
      rw [List.filter_cons_of_pos chosen, List.flatMap_cons, List.filter_eq_self.mpr]
      intro dependency member
      rw [layer_of_mem_inLayer member, chosen]
    | false =>
      rw [List.filter_cons_of_neg (by simp [chosen]), List.filter_eq_nil_iff.mpr, List.nil_append]
      intro dependency member
      simp [layer_of_mem_inLayer member, chosen]

theorem filter_layer_eq (source : Source) (part : Layer) :
    (Layer.all.flatMap (inLayer source)).filter (·.layer == part) = inLayer source part := by
  rw [filter_inLayer _ (· == part)]
  cases part <;> exact List.append_nil _

theorem mem_inLayer {source : Source} {part : Layer} {dependency : Dependency} {parts : List Layer}
    (member : dependency ∈ parts.flatMap (inLayer source)) (isPart : dependency.layer = part) :
    dependency ∈ inLayer source part := by
  obtain ⟨other, -, member⟩ := List.mem_flatMap.mp member
  rw [layer_of_mem_inLayer member] at isPart
  exact isPart ▸ member

theorem mem_definitions {grammar : Grammar} {pattern : Pattern}
    (listed : pattern ∈ (PatternSet.ofGrammar grammar .method).definitions) :
    pattern ∈ grammar.definitions := by
  obtain ⟨⟨pattern, role⟩, kept, rfl⟩ := List.mem_map.mp listed
  obtain ⟨among, defines⟩ := List.mem_filter.mp kept
  rcases List.mem_append.mp among with among | among
  · obtain ⟨definition, known, same⟩ := List.mem_map.mp among
    cases same
    exact known
  · obtain ⟨call, -, same⟩ := List.mem_map.mp among
    cases same
    cases defines

section Languages

variable (language : Language) (path : Path) (content : String)

theorem layer_filled (part : Layer) :
    layer .filled (.ofContent language path content) part =
      .ok (inLayer (.ofContent language path content) part) := by
  rw [layer, Source.patterns_filled]
  cases part <;> rfl

theorem layers_filled (parts : List Layer) :
    layers .filled (.ofContent language path content) parts =
      .ok (parts.flatMap (inLayer (.ofContent language path content))) := by
  induction parts with
  | nil => rfl
  | cons part parts ih =>
    rw [layers, layer_filled, ih]
    rfl

/-- No declared or defined name can reach over a line end. -/
theorem confines_patterns :
    ∀ pattern ∈ language.grammar.structures ++ language.grammar.definitions,
      pattern.confines false = true := by
  apply List.all_eq_true.mp
  cases language <;> decide +kernel

variable {language path content}

theorem standsIn_of_mem_structures {dependency : Dependency}
    (member : dependency ∈ inLayer (.ofContent language path content) .struct) :
    dependency.StandsIn content := by
  obtain ⟨span, word, base, rfl, -, entry, listed, hit, matched, captured, -⟩ :=
    exists_of_mem_structures member
  obtain ⟨pattern, known, rfl⟩ := List.mem_map.mp listed
  refine Source.standsIn_dependency (Pattern.onLine_of_mem_hits ?_ matched captured) _ _
  exact confines_patterns language pattern (List.mem_append_left _ known)

theorem standsIn_of_mem_methods {dependency : Dependency}
    (member : dependency ∈ inLayer (.ofContent language path content) .method) :
    dependency.StandsIn content := by
  obtain ⟨span, result, body, rfl, -, pattern, listed, hit, matched, captured⟩ :=
    exists_of_mem_methods member
  refine Source.standsIn_dependency (Pattern.onLine_of_mem_hits ?_ matched captured) _ _
  exact confines_patterns language pattern (List.mem_append_right _ (mem_definitions listed))

theorem numbered_of_mem_inLayer {part : Layer} {dependency : Dependency}
    (member : dependency ∈ inLayer (.ofContent language path content) part) :
    1 ≤ dependency.line ∧ dependency.line ≤ content.toList.count '\n' + 1 := by
  obtain ⟨target, offset, detail, rfl⟩ := exists_of_mem_layer (layer_filled language path content part) member
  exact Source.numbered_dependency ..

variable (language path content)

theorem wellFormed_inLayer :
    WellFormed language.grammar content
      (Layer.all.flatMap (inLayer (.ofContent language path content))) where
  layered := by
    refine List.pairwise_flatMap.mpr ⟨?_, ?_⟩
    · intro part _
      refine List.pairwise_of_forall_mem_list ?_
      intro a first b second
      exact Nat.le_of_eq (by rw [layer_of_mem_inLayer first, layer_of_mem_inLayer second])
    · have increasing : Layer.all.Pairwise fun a b => Layer.all.idxOf a ≤ Layer.all.idxOf b := by decide
      refine increasing.imp ?_
      intro part next before a first b second
      rw [layer_of_mem_inLayer first, layer_of_mem_inLayer second]
      exact before
  modules dependency member isModule := by
    obtain ⟨name, offset, rfl, named, keeps⟩ := reports_of_mem_modules (mem_inLayer member isModule)
    exact ⟨named, of_keepsModule keeps⟩
  structures dependency member isStruct := by
    obtain ⟨span, word, base, rfl, named, -⟩ := exists_of_mem_structures (mem_inLayer member isStruct)
    exact ⟨fun empty => named (String.ofList_eq_empty_iff.mp empty), word, base, rfl⟩
  declaredOnce := by
    rw [filter_layer_eq]
    exact pairwise_structures
  methods dependency member isMethod := by
    obtain ⟨span, result, body, rfl, free, -⟩ := exists_of_mem_methods (mem_inLayer member isMethod)
    refine ⟨free, nodup_firstNames _, ?_, ?_⟩
    · exact fun own => (of_mem_calledNames own).1 rfl
    · exact fun call called => (of_mem_calledNames called).2
  definedOnce := by
    rw [filter_layer_eq]
    exact nodup_firstMethods [] _
  numbered dependency member := by
    obtain ⟨part, -, member⟩ := List.mem_flatMap.mp member
    exact numbered_of_mem_inLayer member
  placed dependency member named := by
    obtain ⟨part, -, member⟩ := List.mem_flatMap.mp member
    cases part with
    | module => exact absurd (layer_of_mem_inLayer member) named
    | struct => exact standsIn_of_mem_structures member
    | method => exact standsIn_of_mem_methods member

end Languages

end Extract

/-- Extraction succeeds in every language, yields for a mask what it yields for all layers less the
layers that the mask leaves out, and what it yields is well formed. -/
theorem extractAs_wellFormed (language : Language) (path : Path) (content : String)
    (mask : LayerMask) :
    ∃ whole, extractAs .filled language path content .all = .ok whole ∧
      extractAs .filled language path content mask =
        .ok (whole.filter fun dependency => mask.contains dependency.layer) ∧
      Extract.WellFormed language.grammar content
        (whole.filter fun dependency => mask.contains dependency.layer) := by
  refine ⟨_, Extract.layers_filled language path content _, ?_, ?_⟩
  · rw [Extract.filter_inLayer]
    exact Extract.layers_filled language path content _
  · exact (Extract.wellFormed_inLayer language path content).sublist List.filter_sublist

end DepAtlas
