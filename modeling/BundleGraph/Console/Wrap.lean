import BundleGraph.Console.Line
import BundleGraph.Text.Blank

/-!
# Wrapping

A text is laid out in lines of a given width. A line is broken before the first word that does not
fit; the white space behind a word stays with it and may be cut. A word that is too wide for any
line is folded on a console, and in a column of a table it ends in an ellipsis.
-/
namespace BundleGraph.Console

inductive Side where
  | left
  | right
deriving DecidableEq

/-- The chunks of a line: each word with the white space behind it, the first also with the white
space before it. -/
def chunks (l : Text) : List Text :=
  match l.splitBy fun a b => !(a.isBlank && !b.isBlank) with
  | [] => []
  | [chunk] => [chunk]
  | first :: second :: rest =>
    if Text.isBlank first then (first ++ second) :: rest else first :: second :: rest

/-- The parts of clusters that fill up a width each, behind a part that has been begun and takes
`used` columns. -/
def fillParts (width : Nat) (begun : Text) (used : Nat) : List (Text × Nat) → List Text
  | [] => [begun]
  | (cluster, columns) :: rest =>
    if used + columns ≤ width then fillParts width (begun ++ cluster) (used + columns) rest
    else begun :: fillParts width cluster columns rest

/-- What starts a new line because it does not fit on one that has been begun: a chunk, or the parts
of one that is too wide for any line. -/
def parts (folds : Bool) (width : Nat) (chunk : Text) : List Text :=
  if folds && width < chunk.trimEnd.width then fillParts width [] 0 chunk.clusters else [chunk]

/-- The lines that chunks fill up, behind a line that has been begun and takes `used` columns. No
line at the start stays empty. -/
def fillLines (folds : Bool) (width : Nat) (begun : Text) (used : Nat) : List Text → List Text
  | [] => [begun]
  | chunk :: rest =>
    if used + chunk.trimEnd.width ≤ width then
      fillLines folds width (begun ++ chunk) (used + chunk.width) rest
    else
      let parts := parts folds width chunk
      let last := parts.getLastD []
      (if begun.isEmpty then parts.dropLast.dropWhile List.isEmpty else begun :: parts.dropLast) ++
        fillLines folds width last last.width rest

/-- A line without the white space at its end, as far as it has more code points than columns. -/
def cutBlanks (width : Nat) (l : Text) : Text :=
  let blanks := l.length - l.trimEnd.length
  l.take (l.length - min blanks (l.length - width))

/-- The longest part of clusters from their start that fits, filled up with spaces. -/
def takeColumns (width : Nat) : List (Text × Nat) → Text
  | [] => List.replicate width ' '
  | (cluster, columns) :: rest =>
    if columns ≤ width then cluster ++ takeColumns (width - columns) rest
    else List.replicate width ' '

/-- A line that fits: one that is too wide is cut. -/
def crop (width : Nat) (l : Text) : Text :=
  if l.width ≤ width then l else takeColumns width l.clusters

/-- A line that fits: one that is too wide ends in an ellipsis. -/
def shorten (width : Nat) (l : Text) : Text :=
  if l.width ≤ width then l else takeColumns (width - 1) l.clusters ++ [CodePoint.scalar '…']

/-- A line that fits exactly. -/
def fit (side : Side) (width : Nat) (l : Text) : Text :=
  match side with
  | .left =>
    let l := shorten width l
    l ++ List.replicate (width - l.width) (CodePoint.scalar ' ')
  | .right =>
    let l := shorten width l.trimEnd
    List.replicate (width - l.width) (CodePoint.scalar ' ') ++ l

/-- The lines of a text in a column of the given width. -/
def wrap (side : Side) (width : Nat) (t : Text) : List Text :=
  (lines t).flatMap fun l => (fillLines false width [] 0 (chunks l)).map fun part =>
    fit side width (cutBlanks width part)

/-- The lines on a console of the given width in which a line appears. -/
def arrange (width : Nat) (l : Text) : List Text :=
  (fillLines true width [] 0 (chunks l)).map fun part => crop width (cutBlanks width part)

/-- The lines of a text on a console of the given width. -/
def layOut (width : Nat) (t : Text) : List Text := (lines t).flatMap (arrange width)

/-- Whether a line ends at a code point, as far as the width of a text is concerned. -/
def endsLine (c : CodePoint) : Bool :=
  c.inRanges [(0xA, 0xD), (0x1C, 0x1E), (0x85, 0x85), (0x2028, 0x2029)]

/-- The columns that a text asks for: those of its widest line, in which a tabulator takes none. -/
def measure (t : Text) : Nat :=
  (((printed t).splitWhere endsLine).map Text.width).foldl max 0

end BundleGraph.Console
