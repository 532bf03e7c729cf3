import Mathlib.Algebra.Order.Group.Nat
import Mathlib.Algebra.Ring.Parity
import Mathlib.Data.Prod.Lex
import Mathlib.Data.String.Basic
import DepAtlas.Proofs.Incremental.Change
import DepAtlas.Proofs.Report.DotReader
import DepAtlas.Proofs.Text.Search

/-!
A report in the DOT language is a graph, whatever texts its names are.

A quoted field is read as the text that it stands for: a backslash stands before each backslash and each
quotation mark of the text, so that only the last quotation mark has an even number of them before it. So the
whole report can be read, statement by statement. Its nodes and edges are those that are shown, sorted and
without repetition; the kind in front of a name tells nodes of one name apart, and an edge leads from a node
of its dependency, or method, to another one.
-/

namespace DepAtlas.Report.Dot

section Quoting

/-- Undoes escapes. -/
def unescape : Text → Text
  | '\\' :: c :: rest => c :: unescape rest
  | c :: rest => c :: unescape rest
  | [] => []

/-- Number of backslashes at the end of a text. -/
def trailingBackslashes (text : Text) : Nat :=
  (text.reverse.takeWhile (· == '\\')).length

@[simp] theorem trailingBackslashes_backslash (text : Text) :
    trailingBackslashes (text ++ ['\\']) = trailingBackslashes text + 1 := by
  simp [trailingBackslashes]

theorem trailingBackslashes_other {c : Char} (other : c ≠ '\\') (text : Text) :
    trailingBackslashes (text ++ [c]) = 0 := by
  simp [trailingBackslashes, other]

/-- Whether a character is written with a backslash before it. -/
def isSpecial (c : Char) : Bool :=
  c == '\\' || c == '"'

theorem escapeText_special {c : Char} (special : isSpecial c = true) (rest : Text) :
    escapeText (c :: rest) = '\\' :: c :: escapeText rest :=
  if_pos special

theorem escapeText_plain {c : Char} (plain : isSpecial c = false) (rest : Text) :
    escapeText (c :: rest) = c :: escapeText rest :=
  if_neg (Bool.eq_false_iff.mp plain)

theorem ne_of_plain {c : Char} (plain : isSpecial c = false) : c ≠ '\\' ∧ c ≠ '"' := by
  simpa [isSpecial] using plain

theorem unescape_cons {c : Char} (plain : c ≠ '\\') (rest : Text) :
    unescape (c :: rest) = c :: unescape rest := by
  rw [unescape]
  rintro d more rfl -
  exact plain rfl

theorem unescape_escapeText (text : Text) : unescape (escapeText text) = text := by
  induction text with
  | nil => rfl
  | cons c rest ih =>
    cases special : isSpecial c with
    | true => rw [escapeText_special special, unescape, ih]
    | false => rw [escapeText_plain special, unescape_cons (ne_of_plain special).1, ih]

/-- After a text with an even number of backslashes at its end, only the last quotation mark of an escaped
text has an even number of backslashes before it. -/
theorem odd_trailingBackslashes_iff {front : Text} (even : Even (trailingBackslashes front))
    {text before after : Text} (parts : escapeText text ++ ['"'] = before ++ '"' :: after) :
    Odd (trailingBackslashes (front ++ before)) ↔ after ≠ [] := by
  induction text generalizing front before with
  | nil =>
    obtain ⟨rfl, rfl⟩ : before = [] ∧ after = [] := by
      cases before with
      | nil => exact ⟨rfl, (List.cons.inj parts).2.symm⟩
      | cons c before => cases before <;> cases (List.cons.inj parts).2
    rw [List.append_nil]
    exact iff_of_false (Nat.not_odd_iff_even.mpr even) (not_not.mpr rfl)
  | cons c rest ih =>
    -- A special character brings its own backslash, so behind it the number is even again.
    cases special : isSpecial c with
    | true =>
      rw [escapeText_special special] at parts
      obtain _ | ⟨first, before⟩ := before
      · cases (List.cons.inj parts).1
      obtain ⟨rfl, further⟩ := List.cons.inj parts
      obtain _ | ⟨second, before⟩ := before
      · -- The mark is one of the text.
        obtain ⟨rfl, rfl⟩ := List.cons.inj further
        rw [trailingBackslashes_backslash]
        exact iff_of_true even.add_one (List.append_ne_nil_of_right_ne_nil _ (List.cons_ne_nil _ _))
      · obtain ⟨rfl, later⟩ := List.cons.inj further
        have evenHere : Even (trailingBackslashes (front ++ ['\\'] ++ [c])) := by
          by_cases backslash : c = '\\'
          · rw [backslash, trailingBackslashes_backslash, trailingBackslashes_backslash, add_assoc]
            exact even.add even_two
          · rw [trailingBackslashes_other backslash]
            exact Even.zero
        have found := ih evenHere later
        rwa [List.append_assoc, List.append_assoc] at found
    | false =>
      obtain ⟨backslash, quote⟩ := ne_of_plain special
      rw [escapeText_plain special] at parts
      obtain _ | ⟨first, before⟩ := before
      · exact absurd (List.cons.inj parts).1 quote
      obtain ⟨rfl, later⟩ := List.cons.inj parts
      have evenHere : Even (trailingBackslashes (front ++ [c])) := by
        rw [trailingBackslashes_other backslash]
        exact Even.zero
      have found := ih evenHere later
      rwa [List.append_assoc] at found

end Quoting

section Reading

open Lexer (step)

/-- Between words, a piece of text is read as these tokens. -/
def ReadAs (piece : Text) (tokens : List Token) : Prop :=
  ∀ done, piece.foldl step ⟨.bare [], done⟩ = ⟨.bare [], tokens.reverse ++ done⟩

theorem ReadAs.append {piece other : Text} {tokens more : List Token} (first : ReadAs piece tokens)
    (second : ReadAs other more) : ReadAs (piece ++ other) (tokens ++ more) := by
  intro done
  rw [List.foldl_append, first, second, List.reverse_append, List.append_assoc]

theorem foldl_step_escapeText (text read : Text) (done : List Token) :
    (escapeText text).foldl step ⟨.quoted read, done⟩ = ⟨.quoted (read ++ text), done⟩ := by
  induction text generalizing read with
  | nil => rw [escapeText, List.foldl_nil, List.append_nil]
  | cons c rest ih =>
    rw [List.append_cons]
    cases special : isSpecial c with
    | true => exact (congrArg _ (escapeText_special special rest)).trans (ih (read ++ [c]))
    | false =>
      obtain ⟨backslash, quote⟩ := ne_of_plain special
      have read : step ⟨.quoted read, done⟩ c = ⟨.quoted (read ++ [c]), done⟩ := by
        simp [step, backslash, quote]
      rw [escapeText_plain special, List.foldl_cons, read, ih]

theorem toList_quoted (text : String) : (quoted text).toList = ['"'] ++ escapeText text.toList ++ ['"'] := by
  simp [quoted, String.toList_append]

/-- A field is read as the text that it stands for. -/
theorem readAs_quoted (text : String) : ReadAs (quoted text).toList [.quoted text.toList] := by
  intro done
  rw [toList_quoted, List.foldl_append, List.foldl_append]
  change ['"'].foldl step ((escapeText text.toList).foldl step ⟨.quoted [], done⟩) = _
  rw [foldl_step_escapeText]
  rfl

def Node.tokens (node : Node) : List Token :=
  [.quoted node.id.toList, .sign '[', .word "label".toList, .sign '=', .quoted node.label.toList, .sign ',',
    .word "shape".toList, .sign '=', .word node.kind.shape.toList, .sign ']', .sign ';']

def Edge.tokens (edge : Edge) : List Token :=
  [.quoted edge.source.toList, .sign '-', .sign '>', .quoted edge.target.toList, .sign '[',
    .word "label".toList, .sign '=', .quoted edge.label.toList, .sign ']', .sign ';']

theorem readAs_nodeLine (node : Node) : ReadAs (nodeLine node ++ "\n").toList node.tokens := by
  have opening : ReadAs "  ".toList [] := fun _ => rfl
  have labelled : ReadAs " [label=".toList [.sign '[', .word "label".toList, .sign '='] := fun _ => rfl
  have shaped : ReadAs ", shape=".toList [.sign ',', .word "shape".toList, .sign '='] := fun _ => rfl
  have closing : ReadAs (node.kind.shape.toList ++ "];\n".toList)
      [.word node.kind.shape.toList, .sign ']', .sign ';'] := by
    intro done
    cases node.kind <;> rfl
  have whole := ((((opening.append (readAs_quoted node.id)).append labelled).append
    (readAs_quoted node.label)).append shaped).append closing
  have isLine : (nodeLine node ++ "\n").toList =
      "  ".toList ++ (quoted node.id).toList ++ " [label=".toList ++ (quoted node.label).toList ++
        ", shape=".toList ++ (node.kind.shape.toList ++ "];\n".toList) := by
    simp [nodeLine, String.toList_append]
  rw [isLine]
  exact whole

theorem readAs_edgeLine (edge : Edge) : ReadAs (edgeLine edge ++ "\n").toList edge.tokens := by
  have opening : ReadAs "  ".toList [] := fun _ => rfl
  have pointing : ReadAs " -> ".toList [.sign '-', .sign '>'] := fun _ => rfl
  have labelled : ReadAs " [label=".toList [.sign '[', .word "label".toList, .sign '='] := fun _ => rfl
  have closing : ReadAs "];\n".toList [.sign ']', .sign ';'] := fun _ => rfl
  have whole := (((((opening.append (readAs_quoted edge.source)).append pointing).append
    (readAs_quoted edge.target)).append labelled).append (readAs_quoted edge.label)).append closing
  have isLine : (edgeLine edge ++ "\n").toList =
      "  ".toList ++ (quoted edge.source).toList ++ " -> ".toList ++ (quoted edge.target).toList ++
        " [label=".toList ++ (quoted edge.label).toList ++ "];\n".toList := by
    simp [edgeLine, String.toList_append]
  rw [isLine]
  exact whole

theorem readAs_lines {α : Type} (line : α → String) (tokens : α → List Token)
    (read : ∀ item, ReadAs (line item ++ "\n").toList (tokens item)) (items : List α) :
    ReadAs (items.flatMap fun item => (line item ++ "\n").toList) (items.flatMap tokens) := by
  induction items with
  | nil => exact fun _ => rfl
  | cons item items ih => exact (read item).append ih

end Reading

section Statements

/-- The statement that declares a node. -/
def Node.statement (node : Node) : NodeStatement where
  id := node.id
  attributes := [("label", node.label), ("shape", node.kind.shape)]

/-- The statement that declares an edge. -/
def Edge.statement (edge : Edge) : EdgeStatement where
  source := edge.source
  target := edge.target
  attributes := [("label", edge.label)]

theorem list?_node (node : Node) (rest : List Token) :
    Statement.list? [] (node.tokens ++ rest) = (Statement.list? [] rest).map (.node node.statement :: ·) := by
  have read : Statement.list? [] (node.tokens ++ rest) = (Statement.list? [] rest).map
      (.node ⟨String.ofList node.id.toList, [(String.ofList "label".toList, String.ofList node.label.toList),
        (String.ofList "shape".toList, String.ofList node.kind.shape.toList)]⟩ :: ·) := rfl
  rw [read]
  simp only [String.ofList_toList]
  rfl

theorem list?_edge (edge : Edge) (rest : List Token) :
    Statement.list? [] (edge.tokens ++ rest) = (Statement.list? [] rest).map (.edge edge.statement :: ·) := by
  have read : Statement.list? [] (edge.tokens ++ rest) = (Statement.list? [] rest).map
      (.edge ⟨String.ofList edge.source.toList, String.ofList edge.target.toList,
        [(String.ofList "label".toList, String.ofList edge.label.toList)]⟩ :: ·) := rfl
  rw [read]
  simp only [String.ofList_toList]
  rfl

theorem list?_flatMap {α : Type} (tokens : α → List Token) (statement : α → Statement)
    (read : ∀ item rest, Statement.list? [] (tokens item ++ rest) =
      (Statement.list? [] rest).map (statement item :: ·)) (items : List α) (rest : List Token) :
    Statement.list? [] (items.flatMap tokens ++ rest) =
      (Statement.list? [] rest).map (items.map statement ++ ·) := by
  induction items with
  | nil =>
    change Statement.list? [] rest = _
    cases Statement.list? [] rest <;> rfl
  | cons item items ih =>
    rw [List.flatMap_cons, List.append_assoc, read, ih, Option.map_map]
    rfl

/-- The lines before the nodes. -/
def header : List String :=
  ["digraph dependencies \x7b", "  rankdir=LR;", "  node [style=rounded];", "  edge [arrowhead=vee];", ""]

def headerTokens : List Token :=
  [.word "rankdir".toList, .sign '=', .word "LR".toList, .sign ';',
    .word "node".toList, .sign '[', .word "style".toList, .sign '=', .word "rounded".toList, .sign ']',
    .sign ';',
    .word "edge".toList, .sign '[', .word "arrowhead".toList, .sign '=', .word "vee".toList, .sign ']',
    .sign ';']

def headerStatements : List Statement :=
  [.setting "rankdir" "LR", .defaults "node" [("style", "rounded")], .defaults "edge" [("arrowhead", "vee")]]

theorem readAs_header : ReadAs (header.flatMap fun line => (line ++ "\n").toList)
    (.word "digraph".toList :: .word "dependencies".toList :: .sign '\x7b' :: headerTokens) := by
  have kind : ReadAs ("digraph dependencies \x7b" ++ "\n").toList
      [.word "digraph".toList, .word "dependencies".toList, .sign '\x7b'] := fun _ => rfl
  have direction : ReadAs ("  rankdir=LR;" ++ "\n").toList
      [.word "rankdir".toList, .sign '=', .word "LR".toList, .sign ';'] := fun _ => rfl
  have nodes : ReadAs ("  node [style=rounded];" ++ "\n").toList
      [.word "node".toList, .sign '[', .word "style".toList, .sign '=', .word "rounded".toList, .sign ']',
        .sign ';'] := fun _ => rfl
  have edges : ReadAs ("  edge [arrowhead=vee];" ++ "\n").toList
      [.word "edge".toList, .sign '[', .word "arrowhead".toList, .sign '=', .word "vee".toList, .sign ']',
        .sign ';'] := fun _ => rfl
  have blank : ReadAs (("" ++ "\n").toList ++ []) [] := fun _ => rfl
  rw [header, List.flatMap_cons, List.flatMap_cons, List.flatMap_cons, List.flatMap_cons, List.flatMap_cons,
    List.flatMap_nil]
  exact kind.append (direction.append (nodes.append (edges.append blank)))

theorem list?_header (rest : List Token) :
    Statement.list? [] (headerTokens ++ rest) = (Statement.list? [] rest).map (headerStatements ++ ·) := by
  change Option.map _ (Option.map _ (Option.map _ (Statement.list? [] rest))) = _
  cases Statement.list? [] rest <;> rfl

variable (options : ReportOptions) (graph : DependencyGraph)

theorem toList_render : (render options graph).toList =
    (header.flatMap fun line => (line ++ "\n").toList) ++
      ((nodes options.filter graph).flatMap fun node => (nodeLine node ++ "\n").toList) ++
      ("" ++ "\n").toList ++
      ((edges options.filter graph).flatMap fun edge => (edgeLine edge ++ "\n").toList) ++
      ("\x7d" ++ "\n").toList := by
  have parts : lines options graph = header ++ (nodes options.filter graph).map nodeLine ++ [""] ++
      (edges options.filter graph).map edgeLine ++ ["\x7d"] := rfl
  rw [render, String.toList_join, parts]
  simp only [List.map_append, List.flatMap_append, List.flatMap_map, List.flatMap_singleton]

/-- What a report is made of. -/
def tokens : List Token :=
  headerTokens ++ ((nodes options.filter graph).flatMap Node.tokens ++
    ((edges options.filter graph).flatMap Edge.tokens ++ [.sign '\x7d']))

theorem tokens?_render : Lexer.tokens? (render options graph).toList = some
    (.word "digraph".toList :: .word "dependencies".toList :: .sign '\x7b' :: tokens options graph) := by
  have blank : ReadAs ("" ++ "\n").toList [] := fun _ => rfl
  have closing : ReadAs ("\x7d" ++ "\n").toList [.sign '\x7d'] := fun _ => rfl
  have areNodes := readAs_lines nodeLine Node.tokens readAs_nodeLine (nodes options.filter graph)
  have areEdges := readAs_lines edgeLine Edge.tokens readAs_edgeLine (edges options.filter graph)
  have whole := (((readAs_header.append areNodes).append blank).append areEdges).append closing
  rw [Lexer.tokens?, toList_render, whole []]
  change some (List.reverse (List.reverse _ ++ [])) = _
  rw [List.append_nil, List.reverse_reverse, List.append_nil, List.append_assoc, List.append_assoc, tokens]
  rfl

theorem list?_tokens : Statement.list? [] (tokens options graph) = some
    (headerStatements ++ ((nodes options.filter graph).map (.node ·.statement) ++
      (edges options.filter graph).map (.edge ·.statement))) := by
  have last : Statement.list? [] [.sign '\x7d'] = some [] := rfl
  rw [tokens, list?_header, list?_flatMap Node.tokens (.node ·.statement) list?_node,
    list?_flatMap Edge.tokens (.edge ·.statement) list?_edge, last, Option.map_some, List.append_nil,
    Option.map_some, Option.map_some]

/-- The report is read as a graph whose fields are those of the nodes and edges that are shown. -/
theorem read?_render : Document.read? (render options graph).toList = some
    ⟨(nodes options.filter graph).map Node.statement, (edges options.filter graph).map Edge.statement⟩ := by
  have noNodes : headerStatements.filterMap Statement.node? = [] := rfl
  have noEdges : headerStatements.filterMap Statement.edge? = [] := rfl
  rw [Document.read?, tokens?_render]
  change (if "digraph".toList = "digraph".toList then (Statement.list? [] (tokens options graph)).map _
    else none) = _
  rw [if_pos rfl, list?_tokens, Option.map_some]
  simp [noNodes, noEdges, List.filterMap_map, Function.comp_def, Statement.node?, Statement.edge?]

end Statements

section Order

/-- What edges are sorted by: the source, then the target, then the label. -/
def Edge.key (edge : Edge) : String ×ₗ String ×ₗ String :=
  toLex (edge.source, toLex (edge.target, edge.label))

theorem Edge.key_inj {edge other : Edge} : edge.key = other.key ↔ edge = other := by
  obtain ⟨source, target, label⟩ := edge
  obtain ⟨source', target', label'⟩ := other
  simp [Edge.key]

theorem Edge.le_iff (edge other : Edge) : Edge.le edge other = true ↔ edge.key ≤ other.key := by
  rw [Edge.key, Edge.key, Prod.Lex.toLex_le_toLex, Prod.Lex.toLex_le_toLex, Edge.le]
  by_cases sources : edge.source = other.source
  · by_cases targets : edge.target = other.target
    · simp [sources, targets]
    · simp [sources, targets, le_iff_lt_or_eq]
  · simp [sources, le_iff_lt_or_eq]

theorem strictlySorted {α κ : Type} [BEq α] [LawfulBEq α] [LinearOrder κ] (key : α → κ)
    (injective : ∀ item other, key item = key other → item = other) {le : α → α → Bool}
    (isLe : ∀ item other, le item other = true ↔ key item ≤ key other) (items : List α) :
    (items.eraseDups.mergeSort le).Pairwise (key · < key ·) := by
  have sorted : (items.eraseDups.mergeSort le).Pairwise fun a b => le a b = true := by
    refine List.pairwise_mergeSort (fun a b c first second => ?_) (fun a b => ?_) _
    · rw [isLe] at first second ⊢
      exact le_trans first second
    · simpa [isLe] using le_total (key a) (key b)
  have apart : (items.eraseDups.mergeSort le).Pairwise (· ≠ ·) :=
    (List.mergeSort_perm _ _).nodup_iff.mpr (nodup_eraseDups items)
  exact sorted.imp₂ (fun a b below apart =>
    lt_of_le_of_ne ((isLe a b).mp below) fun same => apart (injective a b same)) apart

theorem Node.id_inj {node other : Node} : node.id = other.id ↔ node = other := by
  refine ⟨fun same => ?_, fun same => same ▸ rfl⟩
  obtain ⟨kind, label⟩ := node
  obtain ⟨kind', label'⟩ := other
  have text := congrArg String.toList same
  simp only [Node.id, String.toList_append, List.append_assoc] at text
  have isKind : kind = kind' := by
    have letters := congrArg (List.take 2) text
    cases kind <;> cases kind' <;> first | rfl | (revert letters; simp [Kind.name])
  subst isKind
  rw [String.toList_inj.mp (List.append_cancel_left (List.append_cancel_left text))]

end Order

section Shown

variable (filter : ReportFilter) (graph : DependencyGraph)

/-- A node that is shown: the file or the target of a dependency, the parent type of a declaration, a method,
or a method that it calls. -/
def IsShown (node : Node) : Prop :=
  (∃ dependency ∈ filter.dependencies graph, node = fileNode dependency ∨ node = targetNode dependency ∨
    baseNode? dependency = some node) ∨
  ∃ method ∈ filter.methods graph, node = ⟨.method, method.name⟩ ∨
    ∃ callee ∈ knownCalls graph method, node = ⟨.method, callee⟩

variable {filter graph}

theorem mem_nodes {node : Node} : node ∈ nodes filter graph ↔ IsShown filter graph node := by
  rw [nodes, (List.mergeSort_perm _ _).mem_iff, List.mem_eraseDups, List.mem_append, List.mem_flatMap,
    List.mem_flatMap, IsShown]
  refine or_congr ?_ ?_
  · refine exists_congr fun dependency => and_congr_right fun _ => ?_
    rw [dependencyNodes, List.mem_append, Option.mem_toList, List.mem_pair]
    tauto
  · refine exists_congr fun method => and_congr_right fun _ => ?_
    rw [methodNodes, List.mem_append, List.mem_map, List.mem_singleton]
    simp only [eq_comm, or_comm]

theorem mem_edges {edge : Edge} : edge ∈ edges filter graph ↔
    (∃ dependency ∈ filter.dependencies graph, edge ∈ dependencyEdges dependency) ∨
      ∃ method ∈ filter.methods graph, edge ∈ methodEdges graph method := by
  rw [edges, (List.mergeSort_perm _ _).mem_iff, List.mem_eraseDups, List.mem_append, List.mem_flatMap,
    List.mem_flatMap]

/-- An edge joins nodes that are shown. -/
theorem exists_nodes_of_mem_edges {edge : Edge} (member : edge ∈ edges filter graph) :
    (∃ node, IsShown filter graph node ∧ node.id = edge.source) ∧
      ∃ node, IsShown filter graph node ∧ node.id = edge.target := by
  rcases mem_edges.mp member with ⟨dependency, among, isEdge⟩ | ⟨method, among, isEdge⟩
  · have shown {node : Node} (place : node = fileNode dependency ∨ node = targetNode dependency ∨
        baseNode? dependency = some node) : IsShown filter graph node := .inl ⟨dependency, among, place⟩
    rcases List.mem_cons.mp isEdge with rfl | derived
    · exact ⟨⟨_, shown (.inl rfl), rfl⟩, _, shown (.inr (.inl rfl)), rfl⟩
    · obtain ⟨base, isBase, rfl⟩ := Option.map_eq_some_iff.mp (Option.mem_toList.mp derived)
      exact ⟨⟨_, shown (.inr (.inl rfl)), rfl⟩, base, shown (.inr (.inr isBase)), rfl⟩
  · obtain ⟨callee, known, rfl⟩ := List.mem_map.mp isEdge
    exact ⟨⟨_, .inr ⟨method, among, .inl rfl⟩, rfl⟩, _, .inr ⟨method, among, .inr ⟨callee, known, rfl⟩⟩, rfl⟩

end Shown

/-- What an edge statement is sorted by. -/
def EdgeStatement.key (edge : EdgeStatement) : String ×ₗ String ×ₗ String :=
  toLex (edge.source, toLex (edge.target, (edge.attributes.lookup "label").getD ""))

/-- A report is a graph: each node that is shown is declared once, an edge joins declared nodes, nodes and
edges are in strictly ascending order, and every quoted field is read as the text it stands for. -/
theorem render_isGraph (options : ReportOptions) (graph : DependencyGraph) :
    (∃ document, Document.read? (render options graph).toList = some document ∧
      let ids := document.nodes.map (·.id)
      document.nodes = (nodes options.filter graph).map Node.statement ∧
      document.edges = (edges options.filter graph).map Edge.statement ∧
      (∀ node, node.statement ∈ document.nodes ↔ IsShown options.filter graph node) ∧
      (∀ id ∈ ids, ids.count id = 1) ∧
      (∀ edge ∈ document.edges, edge.source ∈ ids ∧ edge.target ∈ ids) ∧
      ids.Pairwise (· < ·) ∧ document.edges.Pairwise (·.key < ·.key)) ∧
    ∀ text, unescape (escapeText text) = text ∧
      ∀ before after, escapeText text ++ ['"'] = before ++ '"' :: after →
        (¬ Odd (trailingBackslashes before) ↔ after = []) := by
  have ids : ((nodes options.filter graph).map Node.statement).map (·.id) =
      (nodes options.filter graph).map (·.id) := by rw [List.map_map]; rfl
  have ascending : ((nodes options.filter graph).map (·.id)).Pairwise (· < ·) :=
    List.pairwise_map.mpr (strictlySorted Node.id (fun _ _ => Node.id_inj.mp)
      (fun _ _ => decide_eq_true_iff) _)
  refine ⟨⟨_, read?_render options graph, rfl, rfl, fun node => ?_, fun id member => ?_,
    fun edge member => ?_, ?_, ?_⟩, fun text => ⟨unescape_escapeText text, fun before after parts => ?_⟩⟩
  · rw [← mem_nodes]
    refine ⟨fun member => ?_, List.mem_map_of_mem⟩
    obtain ⟨other, among, same⟩ := List.mem_map.mp member
    rwa [← Node.id_inj.mp (congrArg (·.id) same)]
  · rw [ids] at member ⊢
    exact List.count_eq_one_of_mem (ascending.imp ne_of_lt) member
  · obtain ⟨shown, among, rfl⟩ := List.mem_map.mp member
    obtain ⟨⟨source, isSource, sameSource⟩, target, isTarget, sameTarget⟩ := exists_nodes_of_mem_edges among
    rw [ids]
    exact ⟨List.mem_map.mpr ⟨source, mem_nodes.mpr isSource, sameSource⟩,
      List.mem_map.mpr ⟨target, mem_nodes.mpr isTarget, sameTarget⟩⟩
  · rw [ids]
    exact ascending
  · exact List.pairwise_map.mpr (strictlySorted Edge.key (fun _ _ => Edge.key_inj.mp) Edge.le_iff _)
  · have even : Even (trailingBackslashes []) := Even.zero
    exact not_iff_comm.mp (odd_trailingBackslashes_iff even parts).symm

end DepAtlas.Report.Dot
