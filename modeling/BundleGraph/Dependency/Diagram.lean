import BundleGraph.Dependency.Map
import BundleGraph.Text.Blank

/-!
# Diagrams

A dependency map drawn as a Mermaid flowchart. Every name of the map, a dangling target included,
gets a node of its own: names that look alike after cleaning are told apart by a number.
-/
namespace BundleGraph.Diagram

/-- A name as an identifier: everything but ASCII letters, digits and underscores is replaced. -/
def cleanId (name : Name) : Text :=
  "m_" ++ name.map fun c => if c.isWord then c else '_'

def numberedId (id : Text) (k : Nat) : Text := Text.concat [id, "_", Text.ofNat k]

/-- The first of the numbered identifiers from `k` on that is not taken. As many trials as there
are taken identifiers are enough. -/
def freeNumbered (taken : List Text) (id : Text) (k : Nat) : (trials : Nat) → Text
  | 0 => numberedId id k
  | trials + 1 =>
    if numberedId id k ∈ taken then freeNumbered taken id (k + 1) trials else numberedId id k

/-- The plain identifier, or the first free one with a number from two on. -/
def freeId (taken : List Text) (id : Text) : Text :=
  if id ∈ taken then freeNumbered taken id 2 taken.length else id

/-- The identifiers with one for `name`. -/
def addId (ids : List (Name × Text)) (name : Name) : List (Name × Text) :=
  if name ∈ ids.map Prod.fst then ids
  else ids ++ [(name, freeId (ids.map Prod.snd) (cleanId name))]

/-- The identifiers of all names of a map, the keys before the targets. -/
def nodeIds (m : DependencyMap) : List (Name × Text) := (m.keys ++ m.targets).foldl addId []

def idOf (ids : List (Name × Text)) (name : Name) : Text := (ids.lookup name).getD (cleanId name)

/-- A name as a label, its double quotes spelled out. -/
def label (name : Name) : Text := Text.replaceWith '"' "#quot;" name

/-- Whether the module of a name is delivered on demand. -/
def isOnDemand (modules : List Manifest) (name : Name) : Bool :=
  ((Manifest.last? modules name).map Manifest.onDemand).getD false

/-- The node of a name: a hexagon for the base module, a stadium for one on demand. -/
def nodeLine (m : DependencyMap) (modules : List Manifest) (ids : List (Name × Text))
    (name : Name) : Text :=
  let (opening, closing) : Text × Text :=
    if name = m.base then ("\x7b\x7b\"", "\"\x7d\x7d")
    else if isOnDemand modules name then ("([\"", "\"])")
    else ("[\"", "\"]")
  Text.concat ["    ", idOf ids name, opening, label name, closing]

/-- The arrow of an edge, dotted towards the base module. -/
def edgeLine (m : DependencyMap) (ids : List (Name × Text)) (edge : Name × Name) : Text :=
  Text.concat ["    ", idOf ids edge.1, if edge.2 = m.base then " -.-> " else " --> ",
    idOf ids edge.2]

/-- The edges that are drawn: all but those from a module to itself. -/
def drawnEdges (m : DependencyMap) : List (Name × Name) := m.edges.filter fun e => e.1 ≠ e.2

/-- The comment that holds the title, if there is one. -/
def titleLines : Option Text → List Text
  | none => []
  | some title => if title.isEmpty then [] else [Text.concat ["    %% ", title]]

/-- The lines of the edges and a blank line, if any edge is drawn. -/
def edgeLines (m : DependencyMap) (ids : List (Name × Text)) : List Text :=
  match drawnEdges m with
  | [] => []
  | edges => List.flatten [["    %% Dependencies"], edges.map (edgeLine m ids), [""]]

def styleLines (m : DependencyMap) (modules : List Manifest) (ids : List (Name × Text)) :
    List Text :=
  match m.keys.filter (isOnDemand modules) with
  | [] => []
  | names =>
    ["    classDef onDemand stroke-dasharray: 5 5",
      Text.concat ["    class ", Text.joinWith "," (names.map (idOf ids)), " onDemand"]]

def lines (m : DependencyMap) (modules : List Manifest) (title : Option Text) : List Text :=
  let ids := nodeIds m
  List.flatten [["flowchart TD"], titleLines title, ["", "    %% Modules"],
    m.keys.map (nodeLine m modules ids), [""], edgeLines m ids, styleLines m modules ids]

/-- The text of a diagram, without white space at its end but one line feed. -/
def render (m : DependencyMap) (modules : List Manifest) (title : Option Text) : Text :=
  (Text.joinWith "\n" (lines m modules title)).trimEnd ++ ("\n" : Text)

end BundleGraph.Diagram
