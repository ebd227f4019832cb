import BundleGraph.Bundle.Descriptor
import BundleGraph.Files.Document

/-!
# Loading bundle descriptors

A bundle descriptor is read from the file at a path. A directory does not count as one.
-/
namespace BundleGraph.Descriptor

def ofValue (v : Json.Value) : Except DocumentDefect Descriptor :=
  (decode v).mapError (.invalid title)

def load (limits : Json.Limits) (files : FileTree) (path : Path) :
    Except LoadFailure Descriptor :=
  match files.lookup path with
  | .error f => .error (.fault f)
  | .ok (some (.file bytes)) =>
    if files.isClosed path then .error (.error ⟨.bundle, path, .forbidden⟩)
    else Document.load limits .bundle path bytes ofValue
  | .ok _ => .error (.error ⟨.bundle, path, .missing⟩)

end BundleGraph.Descriptor
