import BundleGraph.Dependency.Construction
import BundleGraph.Dependency.Cycle

/-!
# Inspections

What can be wrong with the modules of a bundle and with its dependency map. Each inspection finds
the first violation in the order of the modules or of the map.
-/
namespace BundleGraph.Inspection

/-- There is a base module, and every base module is delivered at install time. -/
def baseViolation? (expected : Name) (modules : List Manifest) : Option Violation :=
  match modules.filter Manifest.isBase with
  | [] => some (.missingBase expected)
  | bases => (bases.find? Manifest.onDemand).map fun x => .onDemandBase x.name

/-- The split ID of a module is its name or absent, and absent for the base module. -/
def splitIdViolation? (modules : List Manifest) : Option Violation :=
  modules.findSome? fun x => x.splitId.bind fun id =>
    if x.isBase then some (.baseSplitId x.name id)
    else if id = x.name then none
    else some (.foreignSplitId x.name id)

/-- No module but the base module depends on itself. -/
def selfViolation? (m : DependencyMap) : Option Violation :=
  (m.keys.find? fun x => x ≠ m.base ∧ m.hasEdge x x).map .selfDependency

/-- The first name that occurs earlier or among the seen ones. -/
def firstRepeat? (seen : List Name) : List Name → Option Name
  | [] => none
  | x :: rest => if x ∈ seen then some x else firstRepeat? (x :: seen) rest

/-- No module declares a dependency twice. -/
def repeatViolation? (m : DependencyMap) : Option Violation :=
  m.rows.findSome? fun row => (firstRepeat? [] row.2).map (.repeatedDependency row.1)

/-- Every dependency is a module. -/
def unknownViolation? (m : DependencyMap) : Option Violation :=
  (m.targets.find? (· ∉ m.keys)).map .unknownModule

/-- No module leads back to itself by way of another one. -/
def cycleViolation? (m : DependencyMap) : Option Violation :=
  match m.searchCycle with
  | .error path => some (.cycle path)
  | .ok _ => none

/-- Why an edge is not in order of delivery. Its ends are looked up among the modules, the
dependency only if the module itself is delivered at install time. -/
def deliveryFailure? (modules : List Manifest) (edge : Name × Name) : Option Failure :=
  match Manifest.last? modules edge.1 with
  | none => some (.fault (.noSuchModule edge.1))
  | some x =>
    if x.onDemand then none
    else match Manifest.last? modules edge.2 with
      | none => some (.fault (.noSuchModule edge.2))
      | some y =>
        if y.onDemand then some (.violation (.onDemandDependency edge.1 edge.2)) else none

/-- No module delivered at install time depends on one delivered on demand. -/
def deliveryFailures? (modules : List Manifest) (m : DependencyMap) : Option Failure :=
  m.edges.findSome? (deliveryFailure? modules)

end BundleGraph.Inspection
