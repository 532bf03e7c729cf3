import DepAtlas.Proofs.Report.Dot
import DepAtlas.Proofs.Report.Recovery
import DepAtlas.Report.Terminal

/-!
What a filter lets through, and what the reports show of it.

The three reports apply one filter to the parts of a graph, each on its own. All of them show the dependencies
that are accepted. They differ in what they show of the calls. The graph in the DOT language draws each call
that a shown method makes to a method of the graph, also when the callee is rejected. The terminal names a cycle
only if a method of it is shown, and the JSON document names them all.
-/

namespace DepAtlas.Report

variable (filter : ReportFilter) (graph : DependencyGraph)

/-- The filter accepts a definition of a method with this name: a dependency, or a method of the graph. -/
def Admits (name : String) : Prop :=
  (∃ dependency ∈ graph.dependencies, filter.accepts dependency = true ∧
    dependency.layer = .method ∧ dependency.target = name) ∨
  ∃ method ∈ graph.methods, filter.acceptsMethod method = true ∧ method.name = name

/-- A method that the filter accepts calls a method of the graph with this name. -/
def IsCalled (name : String) : Prop :=
  ∃ caller ∈ graph.methods, filter.acceptsMethod caller = true ∧ name ∈ caller.dependencies ∧
    ∃ callee ∈ graph.methods, callee.name = name

namespace Dot

variable {filter graph}

theorem mem_knownCalls {method : Method} {name : String} : name ∈ knownCalls graph method ↔
    name ∈ method.dependencies ∧ ∃ callee ∈ graph.methods, callee.name = name := by
  simp [knownCalls]

/-- A method node stands for a definition that is accepted, or for a callee. -/
theorem isShown_method_iff {name : String} :
    IsShown filter graph ⟨.method, name⟩ ↔ Admits filter graph name ∨ IsCalled filter graph name := by
  constructor
  case mp =>
    rintro (⟨dependency, shown, isFile | isTarget | isBase⟩ | ⟨method, shown, isMethod | isCallee⟩)
    · cases congrArg Node.kind isFile
    · obtain ⟨member, accepted⟩ := List.mem_filter.mp shown
      have isLayer : Kind.ofLayer dependency.layer = .method := (congrArg Node.kind isTarget).symm
      have isMethod : dependency.layer = .method := by
        cases layer : dependency.layer <;> simp [layer, Kind.ofLayer] at isLayer ⊢
      exact .inl (.inl ⟨dependency, member, accepted, isMethod, (congrArg Node.label isTarget).symm⟩)
    · obtain ⟨base, -, same⟩ := Option.map_eq_some_iff.mp isBase
      cases congrArg Node.kind same
    · obtain ⟨member, accepted⟩ := List.mem_filter.mp shown
      exact .inl (.inr ⟨method, member, accepted, (congrArg Node.label isMethod).symm⟩)
    · obtain ⟨member, accepted⟩ := List.mem_filter.mp shown
      obtain ⟨callee, known, same⟩ := isCallee
      obtain rfl : name = callee := congrArg Node.label same
      exact .inr ⟨method, member, accepted, mem_knownCalls.mp known⟩
  case mpr =>
    rintro ((⟨dependency, member, accepted, isMethod, rfl⟩ | ⟨method, member, accepted, rfl⟩) |
      ⟨caller, member, accepted, called, known⟩)
    · refine .inl ⟨dependency, List.mem_filter.mpr ⟨member, accepted⟩, .inr (.inl ?_)⟩
      rw [targetNode, isMethod]
      rfl
    · exact .inr ⟨method, List.mem_filter.mpr ⟨member, accepted⟩, .inl rfl⟩
    · exact .inr ⟨caller, List.mem_filter.mpr ⟨member, accepted⟩,
        .inr ⟨name, mem_knownCalls.mpr ⟨called, known⟩, rfl⟩⟩

theorem mem_ids_iff {node : Node} : node.id ∈ ((nodes filter graph).map Node.statement).map (·.id) ↔
    IsShown filter graph node := by
  rw [List.map_map, List.mem_map, ← mem_nodes]
  constructor
  · rintro ⟨other, member, same⟩
    rwa [← Node.id_inj.mp same]
  · exact fun member => ⟨node, member, rfl⟩

/-- The method nodes of the graph are the definitions that are accepted and the callees of the methods that
are. So no rejected method is shown exactly if each callee of an accepted method is accepted itself. -/
theorem render_shows_methods (options : ReportOptions) (graph : DependencyGraph) :
    ∃ document, Document.read? (render options graph).toList = some document ∧
      let ids := document.nodes.map (·.id)
      (∀ name, "method:" ++ name ∈ ids ↔
        Admits options.filter graph name ∨ IsCalled options.filter graph name) ∧
      ((∀ name, "method:" ++ name ∈ ids → Admits options.filter graph name) ↔
        ∀ caller ∈ graph.methods, options.filter.acceptsMethod caller = true →
          ∀ callee ∈ graph.methods, callee.name ∈ caller.dependencies →
            Admits options.filter graph callee.name) := by
  have shows (name : String) :
      "method:" ++ name ∈ ((nodes options.filter graph).map Node.statement).map (·.id) ↔
        Admits options.filter graph name ∨ IsCalled options.filter graph name := by
    have id : "method:" ++ name = (⟨.method, name⟩ : Node).id := rfl
    rw [id, mem_ids_iff, isShown_method_iff]
  refine ⟨_, read?_render options graph, shows, ?_, ?_⟩
  · intro onlyAdmitted caller among accepted callee known called
    exact onlyAdmitted callee.name
      ((shows callee.name).mpr (.inr ⟨caller, among, accepted, called, callee, known, rfl⟩))
  · intro admitted name shown
    rcases (shows name).mp shown with direct | ⟨caller, among, accepted, called, callee, known, rfl⟩
    · exact direct
    · exact admitted caller among accepted callee known called

end Dot

namespace Terminal

/-- The text of lines. -/
def textOf (lines : List String) : String :=
  String.join (lines.map (· ++ "\n"))

theorem length_textOf_cons (line : String) (lines : List String) :
    (textOf (line :: lines)).length = line.length + 1 + (textOf lines).length := by
  simp [textOf, String.length, String.toList_join, String.toList_append, Nat.add_assoc, Nat.add_comm 1]

theorem length_textOf_le {lines more : List String} (sublist : lines.Sublist more) :
    (textOf lines).length ≤ (textOf more).length := by
  induction sublist with
  | slnil => exact Nat.le_refl _
  | cons line _ ih =>
    rw [length_textOf_cons]
    omega
  | cons_cons line _ ih =>
    rw [length_textOf_cons, length_textOf_cons]
    omega

/-- Lines that are left out are missing in the text. -/
theorem eq_of_textOf_eq {lines more : List String} (sublist : lines.Sublist more)
    (same : textOf lines = textOf more) : lines = more := by
  have lengths : (textOf lines).length = (textOf more).length := congrArg _ same
  clear same
  induction sublist with
  | slnil => rfl
  | cons line rest _ =>
    have shorter := length_textOf_le rest
    rw [length_textOf_cons] at lengths
    omega
  | cons_cons line _ ih =>
    rw [length_textOf_cons, length_textOf_cons] at lengths
    rw [ih (by omega)]

/-- What a report tells, apart from how it is worded. -/
structure Page where
  dependencies : List Dependency
  cycles : List (List String)
  changes : List DependencyChange
  failures : List FileFailure
  stats : Option CrawlStats

namespace Page

/-- The lines of what is listed below the dependencies and the cycles. -/
def closingLines (page : Page) : List String :=
  block "Changes since last run" page.changes changeLines ++
  (block s!"Failed files ({page.failures.length})" page.failures (fun failure => [failureLine failure]) ++
    page.stats.elim [] statsLines)

/-- The lines of the report that tells this. -/
def lines (page : Page) : List String :=
  ["Dependency Analysis Results", rule] ++
  (if page.dependencies.isEmpty then ["", "No dependencies found."] else
    groupedLines none page.dependencies) ++
  block "Call cycles" page.cycles (fun cycle => ["  " ++ " -> ".intercalate cycle]) ++
  page.closingLines

/-- The report that tells this. -/
def text (page : Page) : String :=
  textOf page.lines

end Page

/-- What the report of a graph tells, if these are its dependencies and its cycles. -/
def pageOf (options : ReportOptions) (graph : DependencyGraph) (dependencies : List Dependency)
    (cycles : List (List String)) : Page where
  dependencies := dependencies
  cycles := cycles
  changes := graph.changes
  failures := graph.failures
  stats := if options.stats then some graph.stats else none

variable (options : ReportOptions)

theorem render_eq_text : render options graph =
    (pageOf options graph (options.filter.dependencies graph) (options.filter.cycles graph)).text := by
  have sections : dependencySection options.filter graph =
      if (options.filter.dependencies graph).isEmpty then ["", "No dependencies found."] else
        groupedLines none (options.filter.dependencies graph) := by
    rw [dependencySection]
    cases options.filter.dependencies graph <;> rfl
  have stats : (if options.stats then statsLines graph.stats else []) =
      (if options.stats then some graph.stats else none).elim [] statsLines := by
    cases options.stats <;> rfl
  rw [render, lines, sections, stats, List.append_assoc _ _ (Option.elim ..), List.append_assoc _ _ (_ ++ _)]
  rfl

variable {graph options}

theorem block_sublist {α : Type} (heading : String) (line : α → String) {some all : List α}
    (sublist : some.Sublist all) :
    (block heading some fun entry => [line entry]).Sublist (block heading all fun entry => [line entry]) := by
  cases some with
  | nil => exact List.nil_sublist _
  | cons first some =>
    cases all with
    | nil => cases sublist
    | cons other all =>
      have entries := sublist.map line
      simpa [block, List.map_eq_flatMap] using entries

theorem length_block {α : Type} (heading : String) (line : α → String) (entries : List α) :
    (block heading entries fun entry => [line entry]).length =
      if entries = [] then 0 else entries.length + 2 := by
  cases entries <;> simp [block]

/-- A page that leaves out cycles has the text of the page with all of them only if it leaves out none. -/
theorem cycles_eq_of_text_eq {dependencies : List Dependency} {some all : List (List String)}
    (sublist : some.Sublist all)
    (same : (pageOf options graph dependencies some).text = (pageOf options graph dependencies all).text) :
    some = all := by
  have part := block_sublist "Call cycles" (fun cycle => "  " ++ " -> ".intercalate cycle) sublist
  have lines := eq_of_textOf_eq (((List.Sublist.refl _).append part).append (List.Sublist.refl _)) same
  have blocks := List.append_cancel_left (List.append_cancel_right lines)
  have lengths := congrArg List.length blocks
  rw [length_block, length_block] at lengths
  refine sublist.eq_of_length ?_
  split at lengths
  case isTrue none =>
    split at lengths
    case isTrue noneAtAll => rw [none, noneAtAll]
    case isFalse => cases lengths
  case isFalse =>
    split at lengths
    case isTrue => cases lengths
    case isFalse => exact Nat.add_right_cancel lengths

end Terminal

open Json

/-- A cycle with a method that is shown. -/
def IsTold (cycle : List String) : Prop :=
  ∃ method ∈ graph.methods, method.name ∈ cycle ∧ filter.acceptsMethod method = true

instance (cycle : List String) : Decidable (IsTold filter graph cycle) :=
  inferInstanceAs (Decidable (∃ method ∈ graph.methods, _ ∧ _))

variable {graph}

theorem cycles_eq_filter :
    filter.cycles graph = graph.cycles.filter fun cycle => decide (IsTold filter graph cycle) := by
  refine List.filter_congr fun cycle _ => ?_
  rw [Bool.eq_iff_iff, decide_eq_true_iff]
  simp [IsTold]

/-- The terminal and the JSON document show the same dependencies, in the same order. Of the cycles that the
document names, the terminal shows those with a method that is shown, so that its text is that of all of them
exactly if each has one. -/
theorem reports_agree_iff (fit : Dependency.Fit graph.dependencies) (options : ReportOptions) :
    ∃ members dependencies cycles,
      Json.parse? (renderJson options graph) = some (.obj members) ∧
      dependencies = graph.dependencies.filter options.filter.accepts ∧ cycles = graph.cycles ∧
      (members.lookup "dependencies").bind (list? Dependency.ofJson?) = some dependencies ∧
      (members.lookup "cycles").bind (list? strings?) = some cycles ∧
      Terminal.render options graph = (Terminal.pageOf options graph dependencies
        (cycles.filter fun cycle => IsTold options.filter graph cycle)).text ∧
      (Terminal.render options graph = (Terminal.pageOf options graph dependencies cycles).text ↔
        ∀ cycle ∈ cycles, IsTold options.filter graph cycle) := by
  have isDependencies : (asRead (.ofList Dependency.toJson (options.filter.dependencies graph))).list?
      Dependency.ofJson? = some (options.filter.dependencies graph) :=
    Restores.list fun dependency member =>
      Dependency.restores (fit dependency (List.mem_filter.mp member).1)
  have isCycles : (asRead (.ofList .strings graph.cycles)).list? strings? = some graph.cycles :=
    Restores.list fun cycle _ => restores_strings cycle
  have isText : Terminal.render options graph = (Terminal.pageOf options graph
      (options.filter.dependencies graph)
      (graph.cycles.filter fun cycle => IsTold options.filter graph cycle)).text := by
    rw [Terminal.render_eq_text, cycles_eq_filter]
  refine ⟨membersOf options graph, _, _, ?_, rfl, rfl, isDependencies, isCycles, isText, ?_⟩
  · rw [renderJson, parse?_pretty_line _ (fits_toJson options graph), asRead_toJson]
  · rw [isText]
    constructor
    · intro same cycle member
      have complete := Terminal.cycles_eq_of_text_eq List.filter_sublist same
      simpa using List.filter_eq_self.mp complete cycle member
    · intro told
      rw [List.filter_eq_self.mpr fun cycle member => decide_eq_true (told cycle member)]
      rfl

/-- Two methods of one file that call each other. -/
def mutualCalls : DependencyGraph where
  dependencies :=
    [⟨⟨"p.py"⟩, "alpha", .method, .python, 1, some (.method none ["beta"])⟩,
      ⟨⟨"p.py"⟩, "beta", .method, .python, 3, some (.method none ["alpha"])⟩]
  methods :=
    [{ name := "alpha", definedIn := ⟨"p.py"⟩, line := 1, dependencies := ["beta"], references := [⟨"p.py"⟩] },
      { name := "beta", definedIn := ⟨"p.py"⟩, line := 3, dependencies := ["alpha"], references := [⟨"p.py"⟩] }]
  cycles := [["alpha", "beta"]]

theorem mutualCalls_fit : Dependency.Fit mutualCalls.dependencies := by
  simp [Dependency.Fit, mutualCalls, limit32]

/-- Without the methods of the file the terminal shows no cycle, and the document names it. -/
theorem reports_agree_iff_hiddenFile :
    Dependency.Fit mutualCalls.dependencies ∧ ∃ members,
      Json.parse? (renderJson { filter := { unwanted := ["p.py"] } } mutualCalls) = some (.obj members) ∧
      (members.lookup "cycles").bind (list? strings?) = some [["alpha", "beta"]] ∧
      Terminal.render { filter := { unwanted := ["p.py"] } } mutualCalls =
        (Terminal.pageOf { filter := { unwanted := ["p.py"] } } mutualCalls [] []).text ∧
      Terminal.render { filter := { unwanted := ["p.py"] } } mutualCalls ≠
        (Terminal.pageOf { filter := { unwanted := ["p.py"] } } mutualCalls [] [["alpha", "beta"]]).text := by
  obtain ⟨members, dependencies, cycles, isObject, areShown, areAll, -, inDocument, text, agree⟩ :=
    reports_agree_iff mutualCalls_fit { filter := { unwanted := ["p.py"] } }
  have hidden : mutualCalls.dependencies.filter
      (ReportFilter.accepts { unwanted := ["p.py"] }) = [] := by decide +kernel
  have untold : ¬ IsTold { unwanted := ["p.py"] } mutualCalls ["alpha", "beta"] := by decide +kernel
  have noCycle : mutualCalls.cycles.filter
      (fun cycle => IsTold { unwanted := ["p.py"] } mutualCalls cycle) = [] := by
    decide +kernel
  rw [hidden] at areShown
  subst areShown areAll
  refine ⟨mutualCalls_fit, members, isObject, inDocument, ?_, fun same => ?_⟩
  · rw [text, noCycle]
  · exact untold (agree.mp same _ List.mem_cons_self)

end DepAtlas.Report
