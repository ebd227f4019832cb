import BundleGraph.Dependency.Map
import BundleGraph.Fault

/-!
# Construction of the dependency map

Every module implicitly depends on the base module, the base module itself included, so each row
ends with it and every module is a key. A module that occurs twice or declares the implicit
dependency stops the construction.
-/
namespace BundleGraph

def baseName? (modules : List Manifest) : Option Name :=
  (modules.find? Manifest.isBase).map Manifest.name

namespace DependencyMap

def addModule (m : DependencyMap) (x : Manifest) : Except Violation DependencyMap :=
  if h : x.name ∈ m.keys then .error (.duplicateModule x.name)
  else if m.base ∈ x.usesSplits then .error (.explicitBase x.name m.base)
  else .ok (m.push x.name (x.usesSplits ++ [m.base]) h)

/-- The map with a row for each of the modules, or what the first misfit violates. -/
def addModules (m : DependencyMap) : List Manifest → Except Violation DependencyMap
  | [] => .ok m
  | x :: rest => (m.addModule x).bind fun m' => m'.addModules rest

def ofModules (modules : List Manifest) : Except Failure DependencyMap :=
  match baseName? modules with
  | none => .error (.fault .noBaseModule)
  | some base => ((empty base).addModules modules).mapError .violation

end DependencyMap

end BundleGraph
