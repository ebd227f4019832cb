import BundleGraph.Console.Terminal
import BundleGraph.Json.Reader

/-!
# Hosts

What a run depends on besides its command line and the files: how far documents can be read, where
the defects of records are explained, and where the output goes.
-/
namespace BundleGraph

/-- A host. With an address, each defect of a record is told with a link to its explanation. -/
structure Host where
  limits : Json.Limits
  help? : Option Text
  terminal : Console.Terminal

def Host.plain : Host := ⟨.standard, none, .plain⟩

end BundleGraph
