import BundleGraph.Console.Table

/-!
# Output

What a command prints, block by block. A block that cannot be shown prints nothing and ends the
output; what was printed before it stays.
-/
namespace BundleGraph.Console

/-- Something to print: a marked-up text, a table, or a text that is taken as it is. -/
inductive Block where
  | marked (t : Text)
  | table (t : Table)
  | plain (t : Text)

/-- A text that goes out, unless it holds what the terminal cannot write. -/
def emitted (c : Terminal) (t : Text) : Except Fault Text :=
  match t.findIdx? fun x => !c.writes x with
  | some offset => .error (.unencodable t offset)
  | none => .ok t

def Block.render (c : Terminal) : Block → Except Fault Text
  | marked t => (Markup.render c t).bind fun shown => emitted c (unlines (layOut c.width shown))
  | table t => (t.lines c).bind fun ls => emitted c (unlines ls)
  | plain t => emitted c t

/-- The text that blocks print, and the fault that stopped them. -/
def print (c : Terminal) : List Block → Text × Option Fault
  | [] => ([], none)
  | b :: rest =>
    match b.render c with
    | .error f => ([], some f)
    | .ok t => let (u, f?) := print c rest; (t ++ u, f?)

end BundleGraph.Console
