import BundleGraph.Proofs.Command.Validation

/-!
# Errors in one line

An error is told in a line of markup, and the run ends with exit code one. If the line cannot be
printed the run tells nothing and ends with a fault instead.
-/
namespace BundleGraph.Command

open Console

def errorText (message : Text) : Text := "[red]Error:[/red] " ++ message

/-- A run that tells an error: its only line says so, laid out on the terminal, and the exit code is
one. -/
def TellsError (c : Terminal) (o : Outcome) (message : Text) : Prop :=
  o.ending = .exit 1 ∧ ∃ shown, Markup.read c message = .ok shown ∧
    o.output = unlines (layOut c.width ("Error: " ++ shown))

/-- A run that tells nothing because it cannot be printed. -/
def Unprinted (o : Outcome) : Prop :=
  o.output = [] ∧ ∃ g : Fault, g.OfPrinting ∧ o.ending = .fault g

/-- A run that tells an error just when its line can be printed, and nothing else. The line can be
if the message can be in any line, and only if its own tags match and the terminal can write it. -/
structure TellsIfPrinted (c : Terminal) (o : Outcome) (message : Text) : Prop where
  tells_iff : TellsError c o message ↔ (Block.marked (errorText message)).Prints c
  unprinted_iff : Unprinted o ↔ ¬(Block.marked (errorText message)).Prints c
  of_printable : Printable c message → TellsError c o message
  of_not_drawn : ¬Drawn c (errorText message) → Unprinted o

variable {host : Host} {c : Terminal} {files : FileTree} {log message : Text} {b : Block} {u : Text}
variable {ending : Ending}

end BundleGraph.Command
