import BundleGraph.Text.CodePoint

/-!
# Blank code points

The white space and separator characters of Unicode, the four information separators of ASCII
included. The zero width space and the byte order mark are not among them.
-/
namespace BundleGraph

def CodePoint.blankRanges : List (Nat × Nat) :=
  [(0x9, 0xD), (0x1C, 0x20), (0x85, 0x85), (0xA0, 0xA0), (0x1680, 0x1680), (0x2000, 0x200A),
   (0x2028, 0x2029), (0x202F, 0x202F), (0x205F, 0x205F), (0x3000, 0x3000)]

def CodePoint.isBlank (c : CodePoint) : Bool := c.inRanges blankRanges

namespace Text

def isBlank (t : Text) : Bool := t.all CodePoint.isBlank

def trimEnd (t : Text) : Text := (t.reverse.dropWhile CodePoint.isBlank).reverse

def trim (t : Text) : Text := trimEnd (t.dropWhile CodePoint.isBlank)

def words (t : Text) : List Text :=
  (t.splitBy fun a b => a.isBlank == b.isBlank).filter fun run => !run.isBlank

end Text

end BundleGraph
