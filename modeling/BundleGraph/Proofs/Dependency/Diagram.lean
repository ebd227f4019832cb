import BundleGraph.Proofs.Console.Wrap
import BundleGraph.Proofs.Dependency.NodeId

/-!
# Statements of a diagram

A diagram is a list of statements with a line feed behind each: comments, nodes, edges, styles and
blank lines between its parts. Identifiers are cleaned, so no name can break an edge or a style. But
a label keeps the line feeds of its name and the comment those of the title: such a statement goes
on in further lines, which are read as statements of their own.
-/
namespace BundleGraph

open CodePoint (scalar)

variable {c d : CodePoint} {t u : Text} {ls : List Text}

namespace Text

theorem countP_replaceWith {p : CodePoint → Bool} {by' : Text} (hc : ¬p c)
    (hby : by'.countP p = 0) (t : Text) : (replaceWith c by' t).countP p = t.countP p := by
  induction t with
  | nil => rfl
  | cons x t ih =>
    have hcons : replaceWith c by' (x :: t) = (if x = c then by' else [x]) ++ replaceWith c by' t :=
      rfl
    rw [hcons, List.countP_append, ih, List.countP_cons]
    split
    · rename_i hx
      rw [hby, hx, if_neg hc]
      omega
    · rw [List.countP_singleton]
      omega

theorem trimEnd_concat (t : Text) (hc : c.isBlank) : (t ++ [c]).trimEnd = t.trimEnd :=
  List.rdropWhile_concat_pos _ _ _ hc

theorem lines_append_feed (t u : Text) :
    (t ++ scalar '\n' :: u).lines = t.lines ++ u.lines := by
  simp only [lines, splitAt, splitWhere_eq_splitOnP]
  exact List.splitOnP_append_cons t u (by decide)

theorem lines_eq_singleton_iff : t.lines = [t] ↔ scalar '\n' ∉ t := by
  rw [lines, splitAt, splitWhere_eq_splitOnP]
  constructor
  · intro h hmem
    have hflat : (t.splitWhere (· = scalar '\n')).flatten =
        t.filter fun c => !decide (c = scalar '\n') := flatten_splitWhere
    rw [splitWhere_eq_splitOnP, h] at hflat
    have hmem' : scalar '\n' ∈ [t].flatten := by simpa using hmem
    rw [hflat] at hmem'
    simpa using List.of_mem_filter hmem'
  · intro h
    refine List.splitOnP_eq_singleton fun c hc => ?_
    simpa using fun heq : c = scalar '\n' => h (heq ▸ hc)

theorem joinWith_feed_concat (ls : List Text) (l : Text) :
    joinWith "\n" (ls ++ [l]) = Console.unlines ls ++ l := by
  induction ls with
  | nil => simp [joinWith, Console.unlines]
  | cons first ls ih =>
    obtain ⟨second, rest, h⟩ : ∃ second rest, ls ++ [l] = second :: rest :=
      List.exists_cons_of_ne_nil (by simp)
    rw [List.cons_append, h, joinWith, List.intercalate_cons_cons, ← joinWith, ← h, ih]
    simp [Console.unlines, ofString]

end Text

namespace Console

theorem lines_unlines_cons (l : Text) (ls : List Text) :
    (unlines (l :: ls)).lines = l.lines ++ (unlines ls).lines := by
  rw [← Text.lines_append_feed]
  simp [unlines]

end Console

namespace Diagram

open Console

/-- The statements of the edges behind a blank line, if any edge is drawn. -/
def edgeStatements (m : DependencyMap) (ids : List (Name × Text)) : List Text :=
  if drawnEdges m = [] then []
  else [Text.ofString "", Text.ofString "    %% Dependencies"] ++
    (drawnEdges m).map (edgeLine m ids)

def styleStatements (m : DependencyMap) (modules : List Manifest) (ids : List (Name × Text)) :
    List Text :=
  if styleLines m modules ids = [] then [] else Text.ofString "" :: styleLines m modules ids

def body (m : DependencyMap) (modules : List Manifest) : List Text :=
  let ids := nodeIds m
  List.flatten [["", "    %% Modules"], m.keys.map (nodeLine m modules ids), edgeStatements m ids,
    styleStatements m modules ids]

def statements (m : DependencyMap) (modules : List Manifest) (title : Option Text) : List Text :=
  Text.ofString "flowchart TD" :: (titleLines title ++ body m modules)

/-- How many statements there are. The edges and the styles are set off by a blank line. -/
def statementCount (keys edges : Nat) (titled onDemand : Bool) : Nat :=
  3 + keys + (if titled then 1 else 0) + (if edges = 0 then 0 else edges + 2) +
    if onDemand then 3 else 0

/-- A sort of code points that a diagram has from names and titles only: no printable one of ASCII
is of it. -/
def Foreign (p : CodePoint → Bool) : Prop := ∀ c, p c → ¬(0x20 ≤ c.toNat ∧ c.toNat ≤ 0x7E)

/-- A statement that does not end in white space. -/
def Tight (s : Text) : Prop := ∃ c ∈ s.getLast?, ¬c.isBlank

variable {m : DependencyMap} {modules : List Manifest} {ids : List (Name × Text)} {name : Name}
variable {edge : Name × Name} {title : Option Text}

theorem Tight.append (h : Tight u) : Tight (t ++ u) := by
  obtain ⟨c, hc, hblank⟩ := h
  exact ⟨c, by rw [List.getLast?_append, hc, Option.some_or]; rfl, hblank⟩

theorem Tight.concat (front : List Text) (h : Tight t) : Tight (Text.concat (front ++ [t])) := by
  rw [Text.concat, List.flatten_append, List.flatten_singleton]
  exact h.append

def Closed (ss : List Text) : Prop := ∃ front last, ss = front ++ [last] ∧ Tight last

theorem Closed.append {ss' : List Text} (ss : List Text) (h : Closed ss') : Closed (ss ++ ss') := by
  obtain ⟨front, last, rfl, hlast⟩ := h
  exact ⟨ss ++ front, last, (List.append_assoc _ _ _).symm, hlast⟩

theorem Closed.append_section {ss ss' : List Text} (h : Closed ss) (h' : ss' = [] ∨ Closed ss') :
    Closed (ss ++ ss') := by
  rcases h' with rfl | h'
  · rwa [List.append_nil]
  · exact h'.append ss

theorem closed_of_forall_mem {ss : List Text} (h : ∀ s ∈ ss, Tight s) : ss = [] ∨ Closed ss := by
  rcases List.eq_nil_or_concat' ss with rfl | ⟨front, last, rfl⟩
  · exact .inl rfl
  · exact .inr ⟨front, last, rfl, h last (by simp)⟩

theorem IsId.tight {id : Text} (h : IsId id) : Tight id :=
  ⟨id.getLast h.ne_nil, List.getLast?_eq_some_getLast h.ne_nil,
    CodePoint.not_isBlank_of_isWord (h.isWord (List.getLast_mem h.ne_nil))⟩

theorem exists_nodeLine (m : DependencyMap) (modules : List Manifest) (ids : List (Name × Text))
    (name : Name) : ∃ opening closing : Text,
      nodeLine m modules ids name =
        Text.concat ["    ", idOf ids name, opening, label name, closing] ∧
      (∀ c ∈ opening ++ closing, 0x20 ≤ c.toNat ∧ c.toNat ≤ 0x7E) ∧ Tight closing := by
  unfold nodeLine
  split_ifs
  · exact ⟨_, _, rfl, by decide, scalar '\x7d', rfl, by decide⟩
  · exact ⟨_, _, rfl, by decide, scalar ')', rfl, by decide⟩
  · exact ⟨_, _, rfl, by decide, scalar ']', rfl, by decide⟩

theorem tight_nodeLine : Tight (nodeLine m modules ids name) := by
  obtain ⟨opening, closing, h, -, htight⟩ := exists_nodeLine m modules ids name
  rw [h]
  exact htight.concat [_, _, _, _]

theorem tight_edgeLine (h : ∀ name, IsId (idOf ids name)) : Tight (edgeLine m ids edge) :=
  (h edge.2).tight.concat [_, _, _]

theorem styleLines_cases (m : DependencyMap) (modules : List Manifest) (ids : List (Name × Text)) :
    m.keys.any (isOnDemand modules) = false ∧ styleLines m modules ids = [] ∨
      m.keys.any (isOnDemand modules) = true ∧ ∃ names : List Name, styleLines m modules ids =
        [Text.ofString "    classDef onDemand stroke-dasharray: 5 5",
          Text.concat ["    class ", Text.joinWith "," (names.map (idOf ids)), " onDemand"]] := by
  unfold styleLines
  split
  · rename_i h
    exact .inl ⟨by simpa [List.filter_eq_nil_iff] using h, rfl⟩
  · rename_i h
    obtain ⟨name, hname⟩ := List.exists_mem_of_ne_nil _ h
    exact .inr ⟨List.any_eq_true.2 ⟨name, List.mem_filter.1 hname⟩, _, rfl⟩

theorem lines_eq (m : DependencyMap) (modules : List Manifest) (title : Option Text) :
    lines m modules title = statements m modules title ++
      if styleLines m modules (nodeIds m) = [] then [[]] else [] := by
  have hempty : Text.ofString "" = [] := rfl
  have hedges : [] :: edgeLines m (nodeIds m) = edgeStatements m (nodeIds m) ++ [[]] := by
    unfold edgeLines edgeStatements
    split
    · rename_i h
      rw [if_pos h, List.nil_append]
    · rename_i h
      rw [if_neg h]
      simp [hempty]
  unfold lines statements body styleStatements
  simp only [hempty, List.flatten_cons, List.flatten_nil, List.append_assoc, List.cons_append,
    List.nil_append, List.append_nil, List.append_cancel_left_eq, List.cons.injEq, true_and]
  rw [← List.cons_append, hedges]
  split <;> simp [*]

theorem closed_edgeStatements (hids : ∀ name, IsId (idOf ids name)) :
    edgeStatements m ids = [] ∨ Closed (edgeStatements m ids) := by
  unfold edgeStatements
  split
  · exact .inl rfl
  · refine .inr (Closed.append_section ⟨[_], _, rfl, scalar 's', rfl, by decide⟩
      (closed_of_forall_mem fun s hs => ?_))
    obtain ⟨edge, -, rfl⟩ := List.mem_map.1 hs
    exact tight_edgeLine hids

theorem closed_styleStatements (m : DependencyMap) (modules : List Manifest)
    (ids : List (Name × Text)) :
    styleStatements m modules ids = [] ∨ Closed (styleStatements m modules ids) := by
  unfold styleStatements
  rcases styleLines_cases m modules ids with ⟨-, h⟩ | ⟨-, names, h⟩
  · exact .inl (by rw [h]; rfl)
  · rw [h]
    exact .inr ⟨[_, _], _, rfl, Tight.concat [_, _] ⟨scalar 'd', rfl, by decide⟩⟩

theorem closed_body (m : DependencyMap) (modules : List Manifest) : Closed (body m modules) := by
  have hheading : Closed [Text.ofString "", Text.ofString "    %% Modules"] :=
    ⟨[_], _, rfl, scalar 's', rfl, by decide⟩
  have hnodes : ∀ s ∈ m.keys.map (nodeLine m modules (nodeIds m)), Tight s := by
    intro s hs
    obtain ⟨name, -, rfl⟩ := List.mem_map.1 hs
    exact tight_nodeLine
  unfold body
  simp only [List.flatten_cons, List.flatten_nil, List.append_nil, ← List.append_assoc]
  exact ((hheading.append_section (closed_of_forall_mem hnodes)).append_section
    (closed_edgeStatements (isId_idOf m))).append_section (closed_styleStatements _ _ _)

theorem closed_statements (m : DependencyMap) (modules : List Manifest) (title : Option Text) :
    Closed (statements m modules title) :=
  (closed_body m modules).append (_ :: titleLines title)

theorem render_eq_unlines (m : DependencyMap) (modules : List Manifest) (title : Option Text) :
    render m modules title = unlines (statements m modules title) := by
  obtain ⟨front, last, h, c, hc, hblank⟩ := closed_statements m modules title
  have hfeed : (scalar '\n').isBlank := by decide
  have htight : (unlines front ++ last).trimEnd = unlines front ++ last :=
    Text.trimEnd_eq_self (by rw [List.getLast?_append, hc]; rfl) hblank
  have hunlines : unlines (front ++ [last]) = unlines front ++ last ++ [scalar '\n'] := by
    simp [unlines]
  have htrim : (Text.joinWith "\n" (lines m modules title)).trimEnd = unlines front ++ last := by
    rw [lines_eq, h]
    split
    · rw [Text.joinWith_feed_concat, List.append_nil, hunlines, Text.trimEnd_concat _ hfeed, htight]
    · rw [List.append_nil, Text.joinWith_feed_concat, htight]
  rw [render, htrim, h, hunlines]
  rfl

theorem length_titleLines (title : Option Text) :
    (titleLines title).length = if (title.getD []).isEmpty then 0 else 1 := by
  cases title with
  | none => rfl
  | some title =>
    rw [titleLines, apply_ite List.length]
    rfl

theorem length_edgeStatements : (edgeStatements m ids).length =
    if (drawnEdges m).length = 0 then 0 else (drawnEdges m).length + 2 := by
  unfold edgeStatements
  simp only [List.length_eq_zero_iff]
  split <;> simp

theorem length_styleStatements : (styleStatements m modules ids).length =
    if m.keys.any (isOnDemand modules) then 3 else 0 := by
  unfold styleStatements
  rcases styleLines_cases m modules ids with ⟨hnone, h⟩ | ⟨hsome, names, h⟩
  · simp [hnone, h]
  · simp [hsome, h]

theorem length_statements (m : DependencyMap) (modules : List Manifest) (title : Option Text) :
    (statements m modules title).length = statementCount m.keys.length (drawnEdges m).length
      (!(title.getD []).isEmpty) (m.keys.any (isOnDemand modules)) := by
  unfold statements body statementCount
  simp only [List.flatten_cons, List.flatten_nil, List.length_append, List.length_cons,
    List.length_nil, List.length_map, length_titleLines, length_edgeStatements,
    length_styleStatements]
  cases List.isEmpty (title.getD []) <;> simp <;> omega

section Foreign

variable {p : CodePoint → Bool} (hp : Foreign p)

include hp

theorem Foreign.countP_eq_zero (h : ∀ c ∈ t, 0x20 ≤ c.toNat ∧ c.toNat ≤ 0x7E) :
    t.countP p = 0 :=
  List.countP_eq_zero.2 fun c hc hpc => hp c hpc (h c hc)

theorem Foreign.countP_id {id : Text} (h : IsId id) : id.countP p = 0 := by
  refine hp.countP_eq_zero fun c hc => ?_
  have hword := CodePoint.isWord_iff.1 (h.isWord hc)
  omega

theorem Foreign.countP_nodeLine (h : IsId (idOf ids name)) :
    (nodeLine m modules ids name).countP p = name.countP p := by
  obtain ⟨opening, closing, hline, hbrackets, -⟩ := exists_nodeLine m modules ids name
  obtain ⟨hopening, hclosing⟩ := List.forall_mem_append.1 hbrackets
  have hindent : (Text.ofString "    ").countP p = 0 := hp.countP_eq_zero (by decide)
  have hlabel : (label name).countP p = name.countP p :=
    Text.countP_replaceWith (fun hquote => hp _ hquote (by decide)) (hp.countP_eq_zero (by decide))
      name
  simp [hline, Text.concat, hindent, hp.countP_id h, hp.countP_eq_zero hopening,
    hp.countP_eq_zero hclosing, hlabel]

theorem Foreign.countP_edgeLine (h : ∀ name, IsId (idOf ids name)) :
    (edgeLine m ids edge).countP p = 0 := by
  have hindent : (Text.ofString "    ").countP p = 0 := hp.countP_eq_zero (by decide)
  have harrow : (if edge.2 = m.base then Text.ofString " -.-> " else " --> ").countP p = 0 := by
    split <;> exact hp.countP_eq_zero (by decide)
  simp [edgeLine, Text.concat, hindent, hp.countP_id (h _), harrow]

theorem Foreign.countP_edgeStatements (h : ∀ name, IsId (idOf ids name)) {s : Text}
    (hs : s ∈ edgeStatements m ids) : s.countP p = 0 := by
  unfold edgeStatements at hs
  split at hs
  · simp at hs
  · rcases List.mem_append.1 hs with hs | hs
    · rcases List.mem_pair.1 hs with rfl | rfl
      · rfl
      · exact hp.countP_eq_zero (by decide)
    · obtain ⟨edge, -, rfl⟩ := List.mem_map.1 hs
      exact hp.countP_edgeLine h

theorem Foreign.countP_styleLines (h : ∀ name, IsId (idOf ids name)) {s : Text}
    (hs : s ∈ styleLines m modules ids) : s.countP p = 0 := by
  rcases styleLines_cases m modules ids with ⟨-, hnil⟩ | ⟨-, names, hlines⟩
  · simp [hnil] at hs
  · have hids : (Text.joinWith "," (names.map (idOf ids))).countP p = 0 := by
      refine List.countP_eq_zero.2 fun c hc => ?_
      rcases Text.mem_joinWith hc with hcomma | ⟨id, hid, hmem⟩
      · exact List.countP_eq_zero.1 (hp.countP_eq_zero (by decide)) c hcomma
      · obtain ⟨name, -, rfl⟩ := List.mem_map.1 hid
        exact List.countP_eq_zero.1 (hp.countP_id (h name)) c hmem
    have hfront : (Text.ofString "    class ").countP p = 0 := hp.countP_eq_zero (by decide)
    have hback : (Text.ofString " onDemand").countP p = 0 := hp.countP_eq_zero (by decide)
    rw [hlines, List.mem_pair] at hs
    rcases hs with rfl | rfl
    · exact hp.countP_eq_zero (by decide)
    · simp [Text.concat, hids, hfront, hback]

theorem Foreign.countP_styleStatements (h : ∀ name, IsId (idOf ids name)) {s : Text}
    (hs : s ∈ styleStatements m modules ids) : s.countP p = 0 := by
  unfold styleStatements at hs
  split at hs
  · simp at hs
  · rcases List.mem_cons.1 hs with rfl | hs
    · rfl
    · exact hp.countP_styleLines h hs

theorem Foreign.countP_titleLines (title : Option Text) :
    ((titleLines title).map (List.countP p)).sum = (title.getD []).countP p := by
  cases title with
  | none => rfl
  | some title =>
    cases title with
    | nil => rfl
    | cons c title =>
      have hindent : (Text.ofString "    %% ").countP p = 0 := hp.countP_eq_zero (by decide)
      simp [titleLines, Text.concat, hindent]

/-- Statements have of the title and of the names what these have, and nothing else of the sort. -/
theorem Foreign.countP_statements (m : DependencyMap) (modules : List Manifest)
    (title : Option Text) : ((statements m modules title).map (List.countP p)).sum =
      (title.getD []).countP p + (m.keys.map (List.countP p)).sum := by
  have hids := isId_idOf m
  have hsum : ∀ ss : List Text, (∀ s ∈ ss, s.countP p = 0) → (ss.map (List.countP p)).sum = 0 := by
    intro ss h
    rwa [List.sum_eq_zero_iff, List.forall_mem_map]
  have hfirst : (Text.ofString "flowchart TD").countP p = 0 := hp.countP_eq_zero (by decide)
  have hheading : (Text.ofString "    %% Modules").countP p = 0 := hp.countP_eq_zero (by decide)
  have hempty : (Text.ofString "").countP p = 0 := rfl
  have hnodes : (m.keys.map (nodeLine m modules (nodeIds m))).map (List.countP p) =
      m.keys.map (List.countP p) := by
    rw [List.map_map]
    exact List.map_congr_left fun name _ => hp.countP_nodeLine (hids name)
  unfold statements body
  simp only [List.flatten_cons, List.flatten_nil, List.append_nil, List.map_cons, List.map_nil,
    List.sum_cons, List.sum_nil, List.map_append, List.sum_append, hp.countP_titleLines, hfirst,
    hheading, hempty, hnodes, hsum _ fun s hs => hp.countP_edgeStatements hids hs,
    hsum _ fun s hs => hp.countP_styleStatements hids hs, Nat.zero_add, Nat.add_zero]

end Foreign

theorem foreign_feed : Foreign (· == scalar '\n') := by
  intro c hc
  rw [eq_of_beq hc]
  decide

theorem lines_render_some {title : Text} (h : title ≠ []) :
    (render m modules (some title)).lines = Text.ofString "flowchart TD" ::
      ((Text.concat ["    %% ", title]).lines ++ (unlines (body m modules)).lines) := by
  have htitle : titleLines (some title) = [Text.concat ["    %% ", title]] :=
    if_neg (by simpa using h)
  have hfirst : (Text.ofString "flowchart TD").lines = [Text.ofString "flowchart TD"] := by decide
  rw [render_eq_unlines, statements, htitle, lines_unlines_cons, hfirst, List.singleton_append,
    List.singleton_append, lines_unlines_cons]

theorem forall_lines_statements_iff : (∀ s ∈ statements m modules title, s.lines = [s]) ↔
    scalar '\n' ∉ title.getD [] ∧ ∀ name ∈ m.keys, scalar '\n' ∉ name := by
  have hcount : ∀ ts : List Text, (ts.map (List.count (scalar '\n'))).sum = 0 ↔
      ∀ t ∈ ts, scalar '\n' ∉ t := by
    intro ts
    rw [List.sum_eq_zero_iff, List.forall_mem_map]
    simp only [List.count_eq_zero]
  have hsum : ((statements m modules title).map (List.count (scalar '\n'))).sum =
      (title.getD []).count (scalar '\n') + (m.keys.map (List.count (scalar '\n'))).sum :=
    foreign_feed.countP_statements m modules title
  simp only [Text.lines_eq_singleton_iff]
  rw [← hcount, hsum, Nat.add_eq_zero_iff, List.count_eq_zero, hcount]

/-- A diagram is its statements, one behind the other. Their number depends on four things only, but
a statement takes one line just when its name or title does. A title changes the lines of its
comment and no others. -/
theorem render_by_statements (m : DependencyMap) (modules : List Manifest) (title : Option Text) :
    let ss := statements m modules title
    let feeds (t : Text) := t.count (scalar '\n')
    render m modules title = unlines ss ∧
      ss.length = statementCount m.keys.length (drawnEdges m).length
        (!(title.getD []).isEmpty) (m.keys.any (isOnDemand modules)) ∧
      feeds (render m modules title) =
        ss.length + (feeds (title.getD []) + (m.keys.map feeds).sum) ∧
      ((∀ s ∈ ss, s.lines = [s]) ↔
        scalar '\n' ∉ title.getD [] ∧ ∀ name ∈ m.keys, scalar '\n' ∉ name) ∧
      ∃ rest : List Text, ∀ title : Text, title ≠ [] →
        let comment := Text.concat ["    %% ", title]
        (render m modules (some title)).lines =
            Text.ofString "flowchart TD" :: (comment.lines ++ rest) ∧
          (comment.lines = [comment] ↔ scalar '\n' ∉ title) := by
  refine ⟨render_eq_unlines m modules title, length_statements m modules title, ?_,
    forall_lines_statements_iff, (unlines (body m modules)).lines, fun title htitle => ?_⟩
  · have hcount := countP_unlines (· == scalar '\n') (statements m modules title)
    have hone : [scalar '\n'].countP (· == scalar '\n') = 1 := rfl
    rw [List.countP_flatten, foreign_feed.countP_statements, ← render_eq_unlines, hone,
      Nat.mul_one] at hcount
    exact hcount
  · refine ⟨lines_render_some htitle, ?_⟩
    have hindent : scalar '\n' ∉ Text.ofString "    %% " := by decide
    rw [Text.lines_eq_singleton_iff]
    simp [Text.concat, hindent]

/-- A title that forges an edge, and a name that forges a node. -/
theorem forged_statements :
    let m := DependencyMap.ofPairs "base" [(Text.ofString "base", [])]
    let m' := DependencyMap.ofPairs "base"
      [(Text.ofString "base", []), (Text.ofString "a\n    m_x", [])]
    (render m [] (some (Text.ofString "app\n    m_base --> m_x"))).lines =
        ["flowchart TD", "    %% app", "    m_base --> m_x", "", "    %% Modules",
          "    m_base\x7b\x7b\"base\"\x7d\x7d", ""].map Text.ofString ∧
      (render m' [] none).lines =
        ["flowchart TD", "", "    %% Modules", "    m_base\x7b\x7b\"base\"\x7d\x7d",
          "    m_a_____m_x[\"a", "    m_x\"]", ""].map Text.ofString ∧
      ¬∃ count : Nat → Nat → Bool → Bool → Nat,
        ∀ (m : DependencyMap) (modules : List Manifest) (title : Option Text),
          (render m modules title).count (scalar '\n') = count m.keys.length (drawnEdges m).length
            (!(title.getD []).isEmpty) (m.keys.any (isOnDemand modules)) := by
  refine ⟨by decide, by decide, ?_⟩
  rintro ⟨count, h⟩
  have hplain := h (DependencyMap.ofPairs "base" [(Text.ofString "base", [])]) []
    (some (Text.ofString "app"))
  have hforged := h (DependencyMap.ofPairs "base" [(Text.ofString "base", [])]) []
    (some (Text.ofString "app\n    m_base --> m_x"))
  have hcounts : (5 : Nat) = 6 := hplain.trans hforged.symm
  omega

end Diagram

end BundleGraph
