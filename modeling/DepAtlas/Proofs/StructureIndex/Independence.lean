import DepAtlas.Proofs.Extract.WellFormed
import DepAtlas.Proofs.StructureIndex.Entries

/-!
What an entry of the index owes to the other declared names. Names that do not hide one another are found as
if each were looked for alone. A qualified name hides its parts: `Foo::Bar` takes in the places where `Foo`
stands, and the file is not linked to `Foo`.
-/

namespace DepAtlas.StructureIndex

open Extract (inLayer layers_filled mem_inLayer exists_of_mem_structures)

/-- Found in files of any languages. -/
def Extracted (dependencies : List Dependency) : Prop :=
  ∀ dependency ∈ dependencies, ∃ language path content mask found,
    extractAs .filled language path content mask = .ok found ∧ dependency ∈ found

/-- The files that the entry with a name refers to. -/
def referencedIn? (dependencies : List Dependency) (contents : List (Path × String)) (name : String) :
    Option PathSet :=
  ((build dependencies contents).get? name).map (·.referencedIn)

variable {dependencies others : List Dependency} {dependency : Dependency}

theorem Extracted.filled (extracted : Extracted dependencies) : [] ∉ declaredNames dependencies := by
  intro member
  obtain ⟨dependency, known, isStruct, empty⟩ := mem_declaredNames.mp member
  obtain ⟨language, path, content, mask, found, extraction, listed⟩ := extracted dependency known
  rw [extractAs, layers_filled] at extraction
  cases extraction
  have declaration : dependency ∈ inLayer (.ofContent language path content) .struct :=
    mem_inLayer listed isStruct
  obtain ⟨span, word, base, rfl, named, -⟩ := exists_of_mem_structures declaration
  apply named
  simpa [Source.dependency, Text.Span.toString] using empty

theorem referencedIn?_build (first : firstDeclaration? dependencies dependency.target = some dependency)
    (contents : List (Path × String)) :
    referencedIn? dependencies contents dependency.target =
      some (references (declaredNames dependencies) contents (.ofDependency dependency)) := by
  rw [referencedIn?, get?_build, first]
  rfl

theorem references_congr {names names' : List Text} (entry : StructureEntry)
    (same : ∀ text, entry.name.toList ∈ wholeWords names text ↔
      entry.name.toList ∈ wholeWords names' text)
    (contents : List (Path × String)) :
    references names contents entry = references names' contents entry := by
  have found (text : Text) : (wholeWords names text).contains entry.name.toList =
      (wholeWords names' text).contains entry.name.toList := by
    rw [Bool.eq_iff_iff, List.contains_iff_mem, List.contains_iff_mem]
    exact same text
  simp only [references, found]

theorem exists_other (path : Path) : ∃ other : Path, (path == other) = false := by
  by_cases same : (path == ⟨"a"⟩) = true
  · refine ⟨⟨"b"⟩, ?_⟩
    rw [BEq.congr_left same]
    decide
  · exact ⟨⟨"a"⟩, eq_false_of_ne_true same⟩

/-- A name that hides another one keeps some file from being linked to it. -/
theorem exists_unlinked {names : List Text} {other : Text} (entry : StructureEntry) (filled : [] ∉ names)
    (listed : entry.name.toList ∈ names) (single : ¬ Hides entry.name.toList entry.name.toList)
    (known : other ∈ names) (hides : Hides other entry.name.toList) (bare : entry.referencedIn = []) :
    ∃ path content, (entry.definedIn == path) = false ∧ Mentions content.toList entry.name.toList ∧
      (references names [(path, content)] entry).contains path = false := by
  obtain ⟨path, elsewhere⟩ := exists_other entry.definedIn
  obtain ⟨text, mentioned, missed⟩ := exists_hidden filled listed single known hides
  refine ⟨path, String.ofList text, elsewhere, by rwa [String.toList_ofList], ?_⟩
  apply eq_false_of_ne_true
  rw [contains_references, bare]
  rintro (inside | ⟨-, file, member, -, found⟩)
  · cases inside
  · rw [List.mem_singleton.mp member, String.toList_ofList] at found
    exact missed found

/-- If no name hides that of an entry, the entry refers to the other files that mention it. An index of other
declarations, with the same first one of the name, then gives it the same references, whatever the contents
are, exactly if none of its names hides the name either. -/
theorem references_agree_iff (extracted : Extracted dependencies) (extractedToo : Extracted others)
    (first : firstDeclaration? dependencies dependency.target = some dependency)
    (firstToo : firstDeclaration? others dependency.target = some dependency)
    (clear : ∀ other ∈ declaredNames others, ¬ Hides other dependency.target.toList) :
    (∀ contents, ∃ files, referencedIn? others contents dependency.target = some files ∧
      ∀ path, files.contains path = true ↔ (dependency.source == path) = false ∧
        ∃ file ∈ contents, (file.1 == path) = true ∧
          Mentions file.2.toList dependency.target.toList) ∧
      ((∀ contents, referencedIn? dependencies contents dependency.target =
          referencedIn? others contents dependency.target) ↔
        ∀ other ∈ declaredNames dependencies, ¬ Hides other dependency.target.toList) := by
  have listed := mem_declaredNames_of_first first
  have listedToo := mem_declaredNames_of_first firstToo
  have precise (contents : List (Path × String)) := contains_references_of_clear contents
    (.ofDependency dependency) extractedToo.filled listedToo clear rfl
  refine ⟨fun contents => ⟨_, referencedIn?_build firstToo contents, precise contents⟩, ?_, ?_⟩
  · intro agree other known hides
    obtain ⟨path, content, elsewhere, mentioned, missed⟩ := exists_unlinked
      (.ofDependency dependency) extracted.filled listed (clear _ listedToo) known hides rfl
    have linked := (precise [(path, content)] path).mpr
      ⟨elsewhere, _, List.mem_singleton_self _, BEq.refl path, mentioned⟩
    have same := agree [(path, content)]
    rw [referencedIn?_build first, referencedIn?_build firstToo, Option.some_inj] at same
    rw [← same, missed] at linked
    cases linked
  · intro clearToo contents
    have same (text : Text) := (mem_wholeWords_iff extracted.filled listed clearToo text).trans
      (mem_wholeWords_iff extractedToo.filled listedToo clear text).symm
    rw [referencedIn?_build first, referencedIn?_build firstToo,
      references_congr (.ofDependency dependency) same]

/-- What is found in a Ruby file. -/
def foundIn (path : Path) (content : String) : List Dependency :=
  (extractAs .filled .ruby path content .all).toOption.getD []

theorem extracted_foundIn (path : Path) (content : String) : Extracted (foundIn path content) := by
  intro dependency member
  rw [foundIn, extractAs, layers_filled] at member
  exact ⟨_, _, _, _, _, layers_filled .ruby path content _, member⟩

/-- A type, and another one that is declared in it. -/
def outerTypes : List Dependency := foundIn ⟨"a.rb"⟩ "class Foo"

def nestedTypes : List Dependency := foundIn ⟨"b.rb"⟩ "class Foo::Bar"

theorem references_agree_iff_qualified :
    Extracted (outerTypes ++ nestedTypes) ∧ Extracted outerTypes ∧
      (∃ contents, referencedIn? (outerTypes ++ nestedTypes) contents "Foo" ≠
        referencedIn? outerTypes contents "Foo") ∧
      (referencedIn? outerTypes [(⟨"c.rb"⟩, "Foo::Bar.new")] "Foo").any
        (·.contains ⟨"c.rb"⟩) = true ∧
      (referencedIn? (outerTypes ++ nestedTypes) [(⟨"c.rb"⟩, "Foo::Bar.new")] "Foo").any
        (·.contains ⟨"c.rb"⟩) = false := by
  have extracted : Extracted (outerTypes ++ nestedTypes) := by
    intro dependency member
    rcases List.mem_append.mp member with outer | nested
    · exact extracted_foundIn _ _ dependency outer
    · exact extracted_foundIn _ _ dependency nested
  have declares : (firstDeclaration? outerTypes "Foo").isSome = true := by decide +kernel
  obtain ⟨dependency, found⟩ := Option.isSome_iff_exists.mp declares
  have target : dependency.target = "Foo" := (of_firstDeclaration? found).2.2
  have foundToo : firstDeclaration? (outerTypes ++ nestedTypes) "Foo" = some dependency := by
    rw [firstDeclaration?, List.find?_append]
    change (firstDeclaration? outerTypes "Foo").or _ = _
    rw [found, Option.some_or]
  have alone : declaredNames outerTypes = ["Foo".toList] := by decide +kernel
  have known : "Foo::Bar".toList ∈ declaredNames (outerTypes ++ nestedTypes) := by decide +kernel
  have clear : ∀ other ∈ declaredNames outerTypes, ¬ Hides other "Foo".toList := by
    intro other member
    rw [alone] at member
    rw [List.mem_singleton.mp member]
    exact not_hides_of_identifier (List.all_eq_true.mp (by decide))
  have hides : Hides "Foo::Bar".toList "Foo".toList :=
    .holds (by decide) ⟨[], "::Bar".toList, by decide, rfl, by decide⟩
  rw [← target] at found foundToo clear hides
  have agreement :=
    (references_agree_iff extracted (extracted_foundIn _ _) foundToo found clear).2
  have differs : ∃ contents, referencedIn? (outerTypes ++ nestedTypes) contents "Foo" ≠
      referencedIn? outerTypes contents "Foo" := by
    by_contra! same
    rw [← target] at same
    exact agreement.mp same _ known hides
  exact ⟨extracted, extracted_foundIn _ _, differs, by decide +kernel, by decide +kernel⟩

end DepAtlas.StructureIndex
