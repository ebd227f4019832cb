import BundleGraph.Console.Markup
import BundleGraph.Console.Wrap

/-!
# Tables

Tables with a heavy frame around their heading. A column is as wide as the widest cell in it asks
for, with a space on each side. Where the columns do not fit on the console together, the widest
ones are narrowed first. A row is as high as its highest cell; a heading stands at the bottom of its
row and any other cell at the top.
-/
namespace BundleGraph.Console

structure Column where
  heading : Text
  side : Side := .left

/-- A table; every row has a cell for every column. -/
structure Table where
  columns : List Column
  rows : List (List Text)

/-- The strokes of a horizontal rule: left end, line, crossing and right end. -/
structure Strokes where
  left : CodePoint
  line : CodePoint
  crossing : CodePoint
  right : CodePoint

/-- A cell that has been laid out: the width of its column and its lines. -/
structure Cell where
  width : Nat
  lines : List Text

namespace Table

/-- A quotient rounded to the nearest number, and to the even one of two. -/
def roundedQuotient (a b : Nat) : Nat :=
  let q := a / b
  if 2 * (a % b) < b then q else if b < 2 * (a % b) then q + 1 else q + q % 2

/-- The widths after `count` columns that are the widest have shared in giving up an excess. None of
them gives up more than `most`. -/
def narrow (widest most : Nat) : (excess count : Nat) → List Nat → List Nat
  | _, _, [] => []
  | excess, count, width :: rest =>
    if width = widest then
      let given := min most (roundedQuotient excess count)
      (width - given) :: narrow widest most (excess - given) (count - 1) rest
    else width :: narrow widest most excess count rest

def total (widths : List Nat) : Nat := widths.foldl (· + ·) 0

/-- Widths after the widest columns have been narrowed, but to no less than the second widest ones.
-/
def narrowed (room : Nat) (widths : List Nat) : List Nat :=
  let excess := total widths - room
  let widest := widths.foldl max 0
  let second := (widths.filter (· ≠ widest)).foldl max 0
  narrow widest (min excess (widest - second)) excess (widths.count widest) widths

/-- Widths that fit together, unless nothing is left to narrow. -/
def collapse (room : Nat) (widths : List Nat) : List Nat :=
  if _h : room < total widths ∧ total (narrowed room widths) < total widths then
    collapse room (narrowed room widths)
  else widths
termination_by total widths
decreasing_by exact _h.2

/-- The width of each column over all rows of shown texts, on a console of the given width. -/
def widths (width columns : Nat) (rows : List (List Text)) : List Nat :=
  let room := width - (columns + 1)
  collapse room ((List.range columns).map fun i =>
    min room ((rows.map fun r => measure (r.getD i [])).foldl max 0 + 2))

/-- A shown text in a column. Where there is room for the spaces only it has no lines. -/
def cell (side : Side) (width : Nat) (t : Text) : Cell where
  width := width
  lines :=
    if width ≤ 2 then []
    else (wrap side (width - 2) t).map fun l => Text.concat [" ", l, " "]

def cells (sides : List Side) (widths : List Nat) (row : List Text) : List Cell :=
  List.zipWith (fun (side, width) t => cell side width t) (sides.zip widths) row

def horizontal (r : Strokes) (widths : List Nat) : Text :=
  Text.concat [[r.left],
    Text.joinWith [r.crossing] (widths.map fun w => List.replicate w r.line), [r.right]]

/-- One line of a row, between upright strokes. -/
def rowLine (stroke : CodePoint) (parts : List Text) : Text :=
  Text.concat [[stroke], Text.joinWith [stroke] parts, [stroke]]

/-- The lines of a cell in a row of some height, with blank ones above or below it. -/
def Cell.filled (above : Bool) (height : Nat) (cell : Cell) : List Text :=
  let blank : Text := List.replicate cell.width ' '
  let blanks := List.replicate (height - cell.lines.length) blank
  if above then blanks ++ cell.lines else cell.lines ++ blanks

def rowLines (stroke : CodePoint) (above : Bool) (row : List Cell) : List Text :=
  let height := (row.map fun cell => cell.lines.length).foldl max 1
  (List.range height).map fun k =>
    rowLine stroke (row.map fun cell => (Cell.filled above height cell).getD k [])

def drawn (widths : List Nat) (heading : List Cell) (rows : List (List Cell)) : List Text :=
  List.flatten
    [[horizontal ⟨'┏', '━', '┳', '┓'⟩ widths],
      rowLines '┃' true heading,
      [horizontal ⟨'┡', '━', '╇', '┩'⟩ widths],
      rows.flatMap (rowLines '│' false),
      [horizontal ⟨'└', '─', '┴', '┘'⟩ widths]]

/-- The lines of a table of shown texts on a console of the given width. One that is too narrow for
the strokes cuts them. -/
def framed (width : Nat) (sides : List Side) (heading : List Text) (rows : List (List Text)) :
    List Text :=
  let widths := widths width sides.length (heading :: rows)
  let lines := drawn widths (cells sides widths heading) (rows.map (cells sides widths))
  if width < sides.length + 1 then lines.map (crop width) else lines

def lines (c : Terminal) (t : Table) : Except Fault (List Text) := do
  let heading ← t.columns.mapM fun column => Markup.render c column.heading
  let rows ← t.rows.mapM fun r => r.mapM (Markup.render c)
  return framed c.width (t.columns.map Column.side) heading rows

end Table

end BundleGraph.Console
