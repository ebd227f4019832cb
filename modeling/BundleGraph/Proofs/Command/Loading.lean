import BundleGraph.Proofs.Command.ErrorLine
import BundleGraph.Proofs.Files.Loading

/-!
# Inputs that cannot be loaded

What a run answers if its settings or its descriptor cannot be loaded. An error is told in one line,
if markup can show it. A fault that escapes the loaders ends the run, and nothing is told.
-/
namespace BundleGraph.Command

open CodePoint (scalar)

/-- A run that tells a complaint, if it can be printed, or that a fault ends. -/
def Answers (c : Console.Terminal) (o : Outcome) : Except Fault Text → Prop
  | .ok message => TellsIfPrinted c o message
  | .error f => o.output = [] ∧ o.ending = .fault f

variable {host : Host} {files : FileTree} {failure : LoadFailure} {complaint : Except Fault Text}

section Repeated

variable {x : CodePoint} {n : Nat}

end Repeated

end BundleGraph.Command
