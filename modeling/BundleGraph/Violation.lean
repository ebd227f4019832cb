import BundleGraph.Bundle.Manifest

/-!
# Violations

The ways in which the modules of a bundle do not fit together. A violation holds the modules that
it is about; its kind, wording and list of modules are read off it.
-/
namespace BundleGraph

inductive Violation where
  | missingBase (expected : Name)
  | onDemandBase (module : Name)
  | baseSplitId (module : Name) (splitId : Text)
  | foreignSplitId (module : Name) (splitId : Text)
  | duplicateModule (module : Name)
  | explicitBase (module base : Name)
  | selfDependency (module : Name)
  | repeatedDependency (module dependency : Name)
  | unknownModule (module : Name)
  | cycle (path : List Name)
  | onDemandDependency (module dependency : Name)
deriving DecidableEq

namespace Violation

inductive Kind where
  | missingRootModule
  | onDemandRootModule
  | identifierMismatch
  | duplicateModuleEntry
  | explicitRootDependency
  | selfDependency
  | duplicateDependencyDeclaration
  | unknownModuleReference
  | cyclicDependency
  | invalidDeliveryOrdering
deriving DecidableEq

def Kind.name : Kind → Text
  | missingRootModule => "MissingRootModule"
  | onDemandRootModule => "OnDemandRootModule"
  | identifierMismatch => "IdentifierMismatch"
  | duplicateModuleEntry => "DuplicateModuleEntry"
  | explicitRootDependency => "ExplicitRootDependency"
  | selfDependency => "SelfDependency"
  | duplicateDependencyDeclaration => "DuplicateDependencyDeclaration"
  | unknownModuleReference => "UnknownModuleReference"
  | cyclicDependency => "CyclicDependency"
  | invalidDeliveryOrdering => "InvalidDeliveryOrdering"

def kind : Violation → Kind
  | missingBase _ => .missingRootModule
  | onDemandBase _ => .onDemandRootModule
  | baseSplitId _ _ => .identifierMismatch
  | foreignSplitId _ _ => .identifierMismatch
  | duplicateModule _ => .duplicateModuleEntry
  | explicitBase _ _ => .explicitRootDependency
  | selfDependency _ => .selfDependency
  | repeatedDependency _ _ => .duplicateDependencyDeclaration
  | unknownModule _ => .unknownModuleReference
  | cycle _ => .cyclicDependency
  | onDemandDependency _ _ => .invalidDeliveryOrdering

def modules : Violation → List Name
  | missingBase _ => []
  | onDemandBase m => [m]
  | baseSplitId m _ => [m]
  | foreignSplitId m _ => [m]
  | duplicateModule m => [m]
  | explicitBase m _ => [m]
  | selfDependency m => [m]
  | repeatedDependency m d => [m, d]
  | unknownModule m => [m]
  | cycle path => path
  | onDemandDependency m d => [m, d]

def message : Violation → Text
  | missingBase expected => Text.concat ["Mandatory '", expected, "' module is missing."]
  | onDemandBase m =>
    Text.concat ["The base module '", m,
      "' must be delivered at install time, but it is declared on-demand."]
  | baseSplitId _ splitId =>
    Text.concat ["The base module should not declare split ID in the manifest, but it is set to '",
      splitId, "'."]
  | foreignSplitId m splitId =>
    Text.concat ["Module '", m, "' declares in its manifest that the split ID is '", splitId,
      "'. It needs to be either absent or equal to the module name."]
  | duplicateModule m =>
    Text.concat ["Module named '", m, "' was passed in multiple times."]
  | explicitBase m base =>
    Text.concat ["Module '", m, "' declares dependency on the '", base,
      "' module, which is implicit."]
  | selfDependency m => Text.concat ["Module '", m, "' depends on itself via <uses-split>."]
  | repeatedDependency m d =>
    Text.concat ["Module '", m, "' declares dependency on module '", d, "' multiple times."]
  | unknownModule m =>
    Text.concat ["Module '", m, "' is referenced by <uses-split> but does not exist."]
  | cycle path =>
    Text.concat ["Found cyclic dependency between modules: [", Text.joinWith ", " path, "]"]
  | onDemandDependency m d =>
    Text.concat ["Install-time module '", m, "' declares dependency on on-demand module '", d,
      "'."]

end Violation

structure Finding where
  message : Text
  kind : Violation.Kind
  modules : List Name
deriving DecidableEq

def Violation.finding (v : Violation) : Finding := ⟨v.message, v.kind, v.modules⟩

end BundleGraph
