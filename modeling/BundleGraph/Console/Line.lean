import BundleGraph.Text.Width

/-!
# Lines on a console

What becomes of a text on the way to the console: some control characters are dropped and
tabulators are filled up with spaces to the next stop.
-/
namespace BundleGraph.Console

/-- Bell, backspace, vertical tabulator, form feed and carriage return are not printed. -/
def isDropped (c : CodePoint) : Bool :=
  c.toNat = 7 || c.toNat = 8 || c.toNat = 11 || c.toNat = 12 || c.toNat = 13

def printed (t : Text) : Text := t.filter fun c => !isDropped c

/-- The columns from one tabulator stop to the next. -/
def tabStop : Nat := 8

/-- The pieces of a line from a column on, with a tabulator behind each but the last filled up to
the next stop. A tabulator takes at least one column. -/
def fillTabs (column : Nat) : List Text → Text
  | [] => []
  | [last] => last
  | piece :: rest =>
    let filled := piece ++ [CodePoint.scalar ' ']
    let stop := (column + filled.width + tabStop - 1) / tabStop * tabStop
    Text.concat [filled, List.replicate (stop - (column + filled.width)) (CodePoint.scalar ' '),
      fillTabs stop rest]

def expandTabs (t : Text) : Text := fillTabs 0 (t.splitAt '\t')

def lines (t : Text) : List Text := (printed t).lines.map expandTabs

def unlines (ls : List Text) : Text := ls.flatMap fun l => l ++ [CodePoint.scalar '\n']

end BundleGraph.Console
