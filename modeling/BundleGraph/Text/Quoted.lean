import BundleGraph.Text.Printable

/-!
# Quoted texts

The literal form in which a report shows a text. A quote that the text itself holds is avoided if
the other one is free, and what has no visible form is spelled by number.
-/
namespace BundleGraph

/-- The digits of base sixteen in lower case, padded with zeros on the left. -/
def Text.hex (digits n : Nat) : Text :=
  Text.ofString (String.ofList ((Nat.toDigits 16 n).leftpad digits '0'))

def CodePoint.quoted (q c : CodePoint) : Text :=
  if c = q ∨ c = '\\' then ['\\', c]
  else if c = '\n' then "\\n"
  else if c = '\r' then "\\r"
  else if c = '\t' then "\\t"
  else if c.isPrintable then [c]
  else if c.toNat < 0x100 then "\\x" ++ Text.hex 2 c.toNat
  else if c.toNat < 0x10000 then "\\u" ++ Text.hex 4 c.toNat
  else "\\U" ++ Text.hex 8 c.toNat

/-- A text between apostrophes, or between double quotes if only these are free in it. -/
def Text.quoted (t : Text) : Text :=
  let q : CodePoint := if .scalar '\'' ∈ t ∧ .scalar '"' ∉ t then '"' else '\''
  q :: t.flatMap (CodePoint.quoted q) ++ [q]

end BundleGraph
