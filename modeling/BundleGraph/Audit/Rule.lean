import BundleGraph.Audit.Inspection
import BundleGraph.Audit.RuleKind

/-!
# Rules

The rules that a bundle is checked by, and the context that they share. One rule builds the
dependency map; those that read it have to come later. A rule that does not pass leaves the context
as it was.
-/
namespace BundleGraph

inductive Rule where
  | basePresence
  | splitIds
  | dependencyMap
  | noSelfDependencies
  | noRepeats
  | knownModules
  | noCycles
  | deliveryOrder
deriving DecidableEq

/-- What the rules of one run have in common. -/
structure Context where
  modules : List Manifest
  expectedBase : Name
  map? : Option DependencyMap := none

namespace Context

/-- The dependency map, once it has been built. -/
def map (c : Context) : Except Failure DependencyMap :=
  match c.map? with
  | some m => .ok m
  | none => .error (.fault .mapNotBuilt)

def pass (c : Context) : Option Failure → Except Failure Context
  | none => .ok c
  | some failure => .error failure

def passMap (c : Context) (violation? : DependencyMap → Option Violation) :
    Except Failure Context :=
  c.map.bind fun m => c.pass ((violation? m).map .violation)

end Context

namespace Rule

def name : Rule → Text
  | basePresence => "base_module_presence"
  | splitIds => "split_ids"
  | dependencyMap => "dependency_map"
  | noSelfDependencies => "reflexive_dependencies"
  | noRepeats => "unique_dependencies"
  | knownModules => "referenced_modules"
  | noCycles => "cycle_detection"
  | deliveryOrder => "delivery_ordering"

def defaults : List Rule :=
  [basePresence, splitIds, dependencyMap, noSelfDependencies, noRepeats, knownModules, noCycles,
    deliveryOrder]

/-- The context after a rule, or why the rule does not pass. -/
def check (c : Context) : Rule → Except Failure Context
  | basePresence =>
    c.pass ((Inspection.baseViolation? c.expectedBase c.modules).map .violation)
  | splitIds => c.pass ((Inspection.splitIdViolation? c.modules).map .violation)
  | dependencyMap =>
    (DependencyMap.ofModules c.modules).map fun m => { c with map? := some m }
  | noSelfDependencies => c.passMap Inspection.selfViolation?
  | noRepeats => c.passMap Inspection.repeatViolation?
  | knownModules => c.passMap Inspection.unknownViolation?
  | noCycles => c.passMap Inspection.cycleViolation?
  | deliveryOrder => c.map.bind fun m => c.pass (Inspection.deliveryFailures? c.modules m)

def attempt (c : Context) (r : Rule) : Except Failure Unit × Context :=
  match r.check c with
  | .ok c' => (.ok (), c')
  | .error failure => (.error failure, c)

/-- The rules for bundles as a kind of rules: a run begins without a map. -/
def kind : RuleKind Rule Context Failure Fault where
  start modules expected := ⟨modules, expected, none⟩
  name := name
  check := check
  told := Failure.told

end Rule

/-- Whether the modules pass the rules, with the first failure if they do not. -/
def validate (modules : List Manifest) (expected : Name := Manifest.defaultBase)
    (rules : List Rule := Rule.defaults) : Except Failure Unit :=
  Rule.kind.validate modules expected rules

end BundleGraph
