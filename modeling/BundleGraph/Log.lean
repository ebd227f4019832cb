import BundleGraph.Audit.Report
import BundleGraph.Bundle.Descriptor
import BundleGraph.Dependency.Diagram
import BundleGraph.Settings

/-!
# The log

What a run tells about itself: its events, the events of an audit, and how they are written down.
An event is written if it weighs at least as much as the threshold.
-/
namespace BundleGraph

inductive Event where
  | loaded (modules : Nat) (path : Path)
  | auditStarted (modules : Nat)
  | rulesCounted (rules : Nat)
  | ruleStarted (rule : Rule)
  | mapBuilt (modules edges : Nat)
  | cyclesExcluded (modules : Nat)
  | ruleFailed (rule : Rule) (v : Violation)
  | auditEnded (status : Status)
  | diagramDrawn (edges : Nat)
deriving DecidableEq

namespace Event

def level : Event → Level
  | loaded _ _ => .debug
  | auditStarted _ => .info
  | rulesCounted _ => .info
  | ruleStarted _ => .debug
  | mapBuilt _ _ => .debug
  | cyclesExcluded _ => .debug
  | ruleFailed _ _ => .info
  | auditEnded _ => .info
  | diagramDrawn _ => .debug

def source : Event → Text
  | loaded _ _ => "bundledeps.models.bundle"
  | mapBuilt _ _ => "bundledeps.graph.adjacency"
  | cyclesExcluded _ => "bundledeps.graph.cycles"
  | diagramDrawn _ => "bundledeps.graph.mermaid"
  | _ => "bundledeps.validation.framework"

def message : Event → Text
  | loaded n path => Text.concat ["Loaded ", Text.ofNat n, " modules from ", path.toText]
  | auditStarted n => Text.concat ["Starting validation of ", Text.ofNat n, " modules"]
  | rulesCounted n => Text.concat ["Running ", Text.ofNat n, " validation rules"]
  | ruleStarted r => Text.concat ["Executing rule: ", r.name]
  | mapBuilt n e =>
    Text.concat ["Built dependency map with ", Text.ofNat n, " modules and ", Text.ofNat e,
      " edges"]
  | cyclesExcluded n => Text.concat ["No dependency cycles among ", Text.ofNat n, " modules"]
  | ruleFailed r v => Text.concat ["Rule ", r.name, " failed: ", v.message]
  | auditEnded s => Text.concat ["Validation completed with status: ", s.name]
  | diagramDrawn n => Text.concat ["Rendered ", Text.ofNat n, " edges as Mermaid"]

def spelled : CodePoint → Text
  | .scalar c => [.scalar c]
  | .surrogate i => "\\u" ++ Text.hex 4 (0xD800 + i.val)

def line (e : Event) : Text :=
  Text.concat [e.level.name.map CodePoint.toUpper, " ", e.source, ": ",
    e.message.flatMap spelled, "\n"]

end Event

namespace Log

def render (threshold : Level) (events : List Event) : Text :=
  (events.filter fun e => threshold.weight ≤ e.level.weight).flatMap Event.line

def ofMap (m : DependencyMap) : Event := .mapBuilt m.keys.length m.edgeCount

def ofPass (c : Context) : Rule → List Event
  | .dependencyMap => (c.map?.map ofMap).toList
  | .noCycles =>
    match c.map?.map DependencyMap.searchCycle with
    | some (.ok safe) => [.cyclesExcluded safe.length]
    | _ => []
  | _ => []

/-- The events of rules up to the first that does not pass. -/
def ofRules (c : Context) : List Rule → List Event
  | [] => []
  | r :: rest =>
    .ruleStarted r :: match r.check c with
      | .ok c' => ofPass c' r ++ ofRules c' rest
      | .error (.violation v) => [.ruleFailed r v]
      | .error (.fault _) => []

def ofAudit (rules : List Rule) (expected : Name) (modules : List Manifest) : List Event :=
  .auditStarted modules.length :: .rulesCounted rules.length ::
    (ofRules ⟨modules, expected, none⟩ rules ++
      match audit rules expected modules with
      | .ok r => [.auditEnded r.status]
      | .error _ => [])

def ofDiagram (m : DependencyMap) : List Event :=
  [ofMap m, .diagramDrawn (Diagram.drawnEdges m).length]

end Log

end BundleGraph
