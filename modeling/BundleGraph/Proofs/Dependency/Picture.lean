import BundleGraph.Proofs.Dependency.Construction
import BundleGraph.Proofs.Dependency.Diagram

/-!
# What a diagram shows

A diagram states a heading, comments, a node for each key, the edges and the keys on demand. What it
states is about names; only its text is about identifiers. Different names have different ones, so
the text shows the map and nothing else: the edges are found again from their lines. In a map that
was built the solid edges are the declared dependencies and the dotted ones those on the root, which
no module declares.
-/
namespace BundleGraph

namespace Text

theorem splitBy_eq_singleton {t : Text} {blank : Bool} (hne : t ≠ [])
    (h : ∀ c ∈ t, c.isBlank = blank) : (t.splitBy fun a b => a.isBlank == b.isBlank) = [t] := by
  refine List.splitBy_of_isChain hne (List.pairwise_of_forall_mem_list fun a ha b hb => ?_).isChain
  rw [h a ha, h b hb, beq_self_eq_true]

theorem words_append {space word rest : Text} (hspace : space ≠ [])
    (hblank : ∀ c ∈ space, c.isBlank = true) (hword : word ≠ [])
    (hfull : ∀ c ∈ word, c.isBlank = false) (hrest : ∀ c ∈ rest.head?, c.isBlank = true) :
    (space ++ (word ++ rest)).words = word :: rest.words := by
  have hfront : ∀ a ∈ space.getLast?, ∀ b ∈ (word ++ rest).head?,
      (a.isBlank == b.isBlank) = false := by
    intro a ha b hb
    rw [List.head?_append_of_ne_nil _ hword] at hb
    rw [hblank a (List.mem_of_mem_getLast? ha), hfull b (List.mem_of_mem_head? hb)]
    rfl
  have hback : ∀ a ∈ word.getLast?, ∀ b ∈ rest.head?, (a.isBlank == b.isBlank) = false := by
    intro a ha b hb
    rw [hfull a (List.mem_of_mem_getLast? ha), hrest b hb]
    rfl
  have hdropped : space.isBlank = true := List.all_eq_true.2 hblank
  have hkept : word.isBlank = false := by
    obtain ⟨c, hc⟩ := List.exists_mem_of_ne_nil word hword
    exact List.all_eq_false.2 ⟨c, hc, by simp [hfull c hc]⟩
  unfold words
  rw [List.splitBy_append hfront, List.splitBy_append hback, splitBy_eq_singleton hspace hblank,
    splitBy_eq_singleton hword hfull]
  simp [hdropped, hkept]

end Text

theorem DependencyMap.fst_mem_keys {m : DependencyMap} {e : Name × Name} (he : e ∈ m.edges) :
    e.1 ∈ m.keys := by
  obtain ⟨row, hrow, hmem⟩ := List.mem_flatMap.1 he
  obtain ⟨d, -, rfl⟩ := List.mem_map.1 hmem
  exact List.mem_map_of_mem hrow

namespace DependencyMap.Describes

variable {m : DependencyMap} {root : Name} {modules : List Manifest} (h : m.Describes root modules)

include h

theorem filter_edges (p : Name × Name → Bool) : m.edges.filter p = modules.flatMap fun x =>
    (x.usesSplits.filter fun d => p (x.name, d)).map (x.name, ·) ++
      if p (x.name, root) then [(x.name, root)] else [] := by
  rw [h.edges_eq, List.filter_flatMap]
  refine List.flatMap_congr fun x _ => ?_
  rw [List.map_append, List.filter_append, List.filter_map, List.map_singleton,
    List.filter_singleton, Bool.cond_eq_ite]
  rfl

theorem filter_edges_declared :
    m.edges.filter (fun e => e.1 ≠ e.2 ∧ e.2 ≠ root) =
      modules.flatMap fun x => (x.usesSplits.filter (· ≠ x.name)).map (x.name, ·) := by
  rw [h.filter_edges]
  refine List.flatMap_congr fun x hx => ?_
  have hdeclared : x.usesSplits.filter (fun d => x.name ≠ d ∧ d ≠ root) =
      x.usesSplits.filter (· ≠ x.name) := by
    refine List.filter_congr fun d hd => ?_
    have hroot : d ≠ root := by
      rintro rfl
      exact h.implicit x hx hd
    simp [hroot, ne_comm]
  rw [hdeclared]
  simp

theorem filter_edges_implicit :
    m.edges.filter (fun e => e.1 ≠ e.2 ∧ e.2 = root) =
      (modules.filter fun x => x.name ≠ root).map fun x => (x.name, root) := by
  rw [h.filter_edges, ← List.filterMap_eq_map, List.filterMap_filter,
    List.filterMap_eq_flatMap_toList]
  refine List.flatMap_congr fun x hx => ?_
  have hnone : x.usesSplits.filter (fun d => x.name ≠ d ∧ d = root) = [] := by
    refine List.filter_eq_nil_iff.2 fun d hd hroot => h.implicit x hx ?_
    exact (of_decide_eq_true hroot).2 ▸ hd
  rw [hnone]
  by_cases hname : x.name = root <;> simp [hname]

end DependencyMap.Describes

namespace Diagram

open CodePoint (scalar)
open Console (unlines)

inductive Shape where
  | hexagon
  | stadium
  | rectangle

def Shape.opening : Shape → Text
  | hexagon => "\x7b\x7b\""
  | stadium => "([\""
  | rectangle => "[\""

def Shape.closing : Shape → Text
  | hexagon => "\"\x7d\x7d"
  | stadium => "\"])"
  | rectangle => "\"]"

def arrow (dotted : Bool) : Text := if dotted then "-.->" else "-->"

inductive Statement where
  | heading
  | blank
  | comment (text : Text)
  | node (name : Name) (shape : Shape)
  | edge (source target : Name) (dotted : Bool)
  | style
  | members (names : List Name)

namespace Statement

/-- The line of a statement, if `id` gives the identifiers of the names and `label` their labels. -/
def text (id label : Name → Text) : Statement → Text
  | heading => "flowchart TD"
  | blank => ""
  | comment text => Text.concat ["    %% ", text]
  | node name shape => Text.concat ["    ", id name, shape.opening, label name, shape.closing]
  | edge source target dotted =>
    Text.concat ["    ", id source, " ", arrow dotted, " ", id target]
  | style => "    classDef onDemand stroke-dasharray: 5 5"
  | members names => Text.concat ["    class ", Text.joinWith "," (names.map id), " onDemand"]

def isEdge : Statement → Bool
  | edge .. => true
  | _ => false

end Statement

/-- The edge that a line states and whether it is dotted, if `name` gives the names of the
identifiers. -/
def readEdge (name : Text → Name) (line : Text) : Option (Name × Name × Bool) :=
  match line.words with
  | [source, between, target] =>
    if between = arrow true then some (name source, name target, true)
    else if between = arrow false then some (name source, name target, false)
    else none
  | _ => none

/-- The label of a name: each double quote is written out, and nothing else is changed. -/
inductive Labels : Text → Name → Prop
  | nil : Labels [] []
  | quote {text : Text} {name : Name} (rest : Labels text name) :
      Labels (Text.ofString "#quot;" ++ text) (scalar '"' :: name)
  | other {c : CodePoint} {text : Text} {name : Name} (ne : c ≠ scalar '"')
      (rest : Labels text name) : Labels (c :: text) (c :: name)

/-- The shape of the node of a name: the last module of the name tells whether it is on demand. -/
def shapeOf (m : DependencyMap) (modules : List Manifest) (name : Name) : Shape :=
  if name = m.base then .hexagon else if isOnDemand modules name then .stadium else .rectangle

/-- The edges, if there are any but those from a name to itself. -/
def edgePart (m : DependencyMap) : List Statement :=
  let drawn := m.edges.filter fun e => e.1 ≠ e.2
  if drawn = [] then []
  else [.blank, .comment "Dependencies"] ++ drawn.map fun e => .edge e.1 e.2 (e.2 = m.base)

/-- The keys on demand, if there are any. -/
def stylePart (m : DependencyMap) (modules : List Manifest) : List Statement :=
  let names := m.keys.filter (isOnDemand modules)
  if names = [] then [] else [.blank, .style, .members names]

/-- All that a diagram states, in order. -/
def picture (m : DependencyMap) (modules : List Manifest) (title : Option Text) : List Statement :=
  List.flatten [[.heading], ((title.filter (· ≠ [])).map Statement.comment).toList,
    [.blank, .comment "Modules"], m.keys.map fun key => .node key (shapeOf m modules key),
    edgePart m, stylePart m modules]

variable {m : DependencyMap} {modules : List Manifest} {title : Option Text}

theorem labels_label (name : Name) : Labels (label name) name := by
  induction name with
  | nil => exact .nil
  | cons c name ih =>
    have hcons : label (c :: name) =
        (if c = scalar '"' then Text.ofString "#quot;" else [c]) ++ label name := rfl
    rw [hcons]
    split_ifs with hc
    · exact hc ▸ .quote ih
    · exact .other hc ih

theorem nodeLine_eq (m : DependencyMap) (modules : List Manifest) (ids : List (Name × Text))
    (name : Name) :
    nodeLine m modules ids name =
      (Statement.node name (shapeOf m modules name)).text (idOf ids) label := by
  unfold nodeLine shapeOf
  split_ifs <;> rfl

theorem edgeLine_eq (m : DependencyMap) (ids : List (Name × Text)) (e : Name × Name) :
    edgeLine m ids e = (Statement.edge e.1 e.2 (e.2 = m.base)).text (idOf ids) label := by
  by_cases hbase : e.2 = m.base <;>
    simp [edgeLine, Statement.text, arrow, hbase, Text.concat, Text.ofString]

theorem titleLines_eq (id label : Name → Text) (title : Option Text) : titleLines title =
    ((title.filter (· ≠ [])).map Statement.comment).toList.map (Statement.text id label) := by
  rcases title with _ | _ | ⟨c, t⟩ <;> rfl

theorem edgeStatements_eq (m : DependencyMap) (ids : List (Name × Text)) : edgeStatements m ids =
    (edgePart m).map (Statement.text (idOf ids) label) := by
  have hlines : (drawnEdges m).map (edgeLine m ids) =
      ((drawnEdges m).map fun e => Statement.edge e.1 e.2 (e.2 = m.base)).map
        (Statement.text (idOf ids) label) := by
    simp [edgeLine_eq]
  unfold edgeStatements
  change _ = (if drawnEdges m = [] then [] else _).map _
  rw [hlines]
  split_ifs <;> rfl

theorem styleStatements_eq (m : DependencyMap) (modules : List Manifest)
    (ids : List (Name × Text)) : styleStatements m modules ids =
      (stylePart m modules).map (Statement.text (idOf ids) label) := by
  unfold styleStatements styleLines stylePart
  cases m.keys.filter (isOnDemand modules) <;> rfl

theorem statements_eq (m : DependencyMap) (modules : List Manifest) (title : Option Text) :
    statements m modules title = (picture m modules title).map
      (Statement.text (idOf (nodeIds m)) label) := by
  have hnodes : m.keys.map (nodeLine m modules (nodeIds m)) =
      (m.keys.map fun key => Statement.node key (shapeOf m modules key)).map
        (Statement.text (idOf (nodeIds m)) label) := by
    simp [nodeLine_eq]
  simp only [statements, body, picture, titleLines_eq (idOf (nodeIds m)) label, hnodes,
    edgeStatements_eq, styleStatements_eq, List.flatten_cons, List.flatten_nil, List.map_append,
    List.append_nil]
  rfl

theorem IsId.isBlank_eq_false {id : Text} (h : IsId id) : ∀ c ∈ id, c.isBlank = false := fun _ hc =>
  eq_false_of_ne_true (CodePoint.not_isBlank_of_isWord (h.isWord hc))

theorem words_edge {id label : Name → Text} {source target : Name} (hs : IsId (id source))
    (ht : IsId (id target)) (dotted : Bool) :
    ((Statement.edge source target dotted).text id label).words =
      [id source, arrow dotted, id target] := by
  have hline : (Statement.edge source target dotted).text id label = Text.ofString "    " ++
      (id source ++ (Text.ofString " " ++ (arrow dotted ++ (Text.ofString " " ++
        (id target ++ []))))) := by
    simp [Statement.text, Text.concat]
  have harrow : arrow dotted ≠ [] ∧ ∀ c ∈ arrow dotted, c.isBlank = false := by
    cases dotted <;> decide
  have hspace : ∀ c ∈ Text.ofString " ", c.isBlank = true := by decide
  have hhead (t : Text) : ∀ c ∈ (Text.ofString " " ++ t).head?, c.isBlank = true :=
    fun c hc => hspace c (by simpa [Text.ofString, eq_comm] using hc)
  rw [hline, Text.words_append (by decide) (by decide) hs.ne_nil hs.isBlank_eq_false (hhead _),
    Text.words_append (by decide) hspace harrow.1 harrow.2 (hhead _),
    Text.words_append (by decide) hspace ht.ne_nil ht.isBlank_eq_false (by simp)]
  rfl

theorem readEdge_text {id label : Name → Text} {name : Text → Name} {source target : Name}
    (hs : IsId (id source)) (ht : IsId (id target)) (hsource : name (id source) = source)
    (htarget : name (id target) = target) (dotted : Bool) :
    readEdge name ((Statement.edge source target dotted).text id label) =
      some (source, target, dotted) := by
  have harrow : arrow false ≠ arrow true := by decide
  rw [readEdge, words_edge hs ht]
  cases dotted <;> simp [hsource, htarget, harrow]

theorem filter_isEdge_picture (m : DependencyMap) (modules : List Manifest) (title : Option Text) :
    (picture m modules title).filter Statement.isEdge =
      (m.edges.filter fun e => e.1 ≠ e.2).map fun e => .edge e.1 e.2 (e.2 = m.base) := by
  have htitle : ((title.filter (· ≠ [])).map Statement.comment).toList.filter Statement.isEdge =
      [] := by
    cases title.filter (· ≠ []) <;> rfl
  have hnodes : (m.keys.map fun key => Statement.node key (shapeOf m modules key)).filter
      Statement.isEdge = [] :=
    List.filter_eq_nil_iff.2 (List.forall_mem_map.2 fun _ _ => nofun)
  have hedges : (edgePart m).filter Statement.isEdge =
      (m.edges.filter fun e => e.1 ≠ e.2).map fun e => .edge e.1 e.2 (e.2 = m.base) := by
    simp only [edgePart]
    split_ifs with hnone
    · rw [hnone]
      rfl
    · exact List.filter_eq_self.2 (List.forall_mem_map.2 fun _ _ => rfl)
  have hstyle : (stylePart m modules).filter Statement.isEdge = [] := by
    unfold stylePart
    cases m.keys.filter (isOnDemand modules) <;> rfl
  simp only [picture, List.flatten_cons, List.flatten_nil, List.filter_append, htitle, hnodes,
    hedges, hstyle, List.append_nil]
  rfl

/-- Only a blank line is trimmed. -/
theorem joinWith_lines_cases (m : DependencyMap) (modules : List Manifest) (title : Option Text) :
    let text := Text.joinWith "\n" (lines m modules title)
    text = text.trimEnd ∨ text = text.trimEnd ++ [scalar '\n'] := by
  intro text
  have hrender : text.trimEnd ++ [scalar '\n'] = unlines (statements m modules title) :=
    render_eq_unlines m modules title
  obtain ⟨front, last, hsplit, -⟩ := closed_statements m modules title
  have hlines : text = Text.joinWith "\n" (lines m modules title) := rfl
  rw [lines_eq] at hlines
  split_ifs at hlines
  · rw [Text.joinWith_feed_concat, List.append_nil, ← hrender] at hlines
    exact .inr hlines
  · rw [List.append_nil, hsplit, Text.joinWith_feed_concat] at hlines
    have hlast : unlines [last] = last ++ [scalar '\n'] := by simp [unlines]
    rw [hsplit, Console.unlines_append, hlast, ← List.append_assoc, ← hlines] at hrender
    exact .inl (List.append_cancel_right hrender).symm

theorem isOnDemand_iff {name : Name} : isOnDemand modules name ↔
    ∃ x, IsLast (fun y => y.name = name) modules x ∧ x.onDemand := by
  unfold isOnDemand
  simp only [← last?_eq_some_iff]
  cases Manifest.last? modules name <;> simp

/-- A diagram is the picture of its map, names spelled as distinct identifiers and as labels, and
nothing but a blank line is trimmed at its end. By the identifiers the edges are found again from
their lines: all in order but those from a name to itself, and dotted towards the base module. The
last module of a name tells whether it is on demand. If the map was built from modules, the solid
edges are their declared dependencies, and the dotted ones lead from each other module to the base
module. -/
theorem render_shows_map (m : DependencyMap) (modules : List Manifest) (title : Option Text) :
    let names : Set Name := {name | name ∈ m.keys ++ m.targets}
    let drawn := m.edges.filter fun e => e.1 ≠ e.2
    let text := Text.joinWith "\n" (lines m modules title)
    (∃ id label : Name → Text, (∀ name ∈ names, IsId (id name)) ∧ Set.InjOn id names ∧
      (∀ name, Labels (label name) name) ∧
      render m modules title = unlines ((picture m modules title).map (Statement.text id label)) ∧
      (((picture m modules title).filter Statement.isEdge).map fun s =>
        readEdge (Function.invFunOn id names) (s.text id label)) =
        drawn.map fun e => some (e.1, e.2, decide (e.2 = m.base))) ∧
    (text = text.trimEnd ∨ text = text.trimEnd ++ [scalar '\n']) ∧
    (∀ name, isOnDemand modules name ↔
      ∃ x, IsLast (fun y => y.name = name) modules x ∧ x.onDemand) ∧
    ∀ bundle, DependencyMap.ofModules bundle = .ok m →
      (drawn.filter fun e => e.2 ≠ m.base) =
        (bundle.flatMap fun x => (x.usesSplits.filter (· ≠ x.name)).map (x.name, ·)) ∧
      (drawn.filter fun e => e.2 = m.base) =
        (bundle.filter fun x => x.name ≠ m.base).map fun x => (x.name, m.base) := by
  intro names drawn text
  refine ⟨⟨idOf (nodeIds m), label, fun name _ => isId_idOf m name, injOn_idOf m, labels_label, ?_,
    ?_⟩,
    joinWith_lines_cases m modules title, fun name => isOnDemand_iff, fun bundle hbuilt => ?_⟩
  · rw [render_eq_unlines, statements_eq]
  · rw [filter_isEdge_picture, List.map_map]
    refine List.map_congr_left fun e he => ?_
    have hmem := List.mem_of_mem_filter he
    have hinv := (injOn_idOf m).leftInvOn_invFunOn
    refine readEdge_text (isId_idOf m e.1) (isId_idOf m e.2) (hinv ?_) (hinv ?_) _
    · exact List.mem_append_left _ (DependencyMap.fst_mem_keys hmem)
    · exact List.mem_append_right _ (List.mem_map_of_mem hmem)
  · obtain ⟨root, hdesc⟩ := DependencyMap.exists_describes hbuilt
    obtain rfl := hdesc.base_eq
    rw [← hdesc.filter_edges_declared, ← hdesc.filter_edges_implicit]
    simp [drawn, List.filter_filter, Bool.and_comm]

end Diagram

end BundleGraph
