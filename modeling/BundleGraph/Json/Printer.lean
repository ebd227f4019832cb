import BundleGraph.Json.Value

/-!
# Writing JSON

Documents in ASCII: every other code point is written as an escape, a supplementary character as
two. `print` sets each item on its own line, indented by two spaces for each level; an empty array
or object stays on one line. `printLine` writes everything on one line.
-/
namespace BundleGraph.Json

def unitEscape (n : Nat) : Text := "\\u" ++ Text.hex 4 n

def escaped (c : CodePoint) : Text :=
  let n := c.toNat
  if c = '"' ∨ c = '\\' then ['\\', c]
  else if 0x20 ≤ n ∧ n < 0x7F then [c]
  else if c = '\n' then "\\n"
  else if c = '\r' then "\\r"
  else if c = '\t' then "\\t"
  else if c = '\x08' then "\\b"
  else if c = '\x0c' then "\\f"
  else if n < 0x10000 then unitEscape n
  else unitEscape (0xD800 + (n - 0x10000) / 0x400) ++ unitEscape (0xDC00 + (n - 0x10000) % 0x400)

def printString (t : Text) : Text := CodePoint.scalar '"' :: t.flatMap escaped ++ [.scalar '"']

def printFloat : Binary64 → Text
  | .nan => "NaN"
  | .infinite negative => if negative then "-Infinity" else "Infinity"
  | x => x.toText

/-- Where the items of an array or object are set. -/
inductive Layout where
  | oneLine
  | indented (depth : Nat)

namespace Layout

def deeper : Layout → Layout
  | oneLine => oneLine
  | indented d => indented (d + 1)

def lineBreak : Layout → Text
  | oneLine => []
  | indented d => CodePoint.scalar '\n' :: List.replicate (2 * d) ' '

def separator : Layout → Text
  | oneLine => ", "
  | indented d => CodePoint.scalar ',' :: lineBreak (indented d)

def bracketed (l : Layout) (opening closing : CodePoint) (items : List Text) : Text :=
  if items.isEmpty then [opening, closing]
  else opening :: (l.deeper.lineBreak ++ Text.joinWith l.deeper.separator items ++
    l.lineBreak ++ [closing])

end Layout

mutual

def printWith (l : Layout) : Value → Text
  | .null => "null"
  | .bool b => if b then "true" else "false"
  | .int n => Text.ofInt n
  | .float x => printFloat x
  | .string t => printString t
  | .array items => l.bracketed '[' ']' (printItems l.deeper items)
  | .object members => l.bracketed '\x7b' '\x7d' (printMembers l.deeper members)

def printItems (l : Layout) : List Value → List Text
  | [] => []
  | v :: rest => printWith l v :: printItems l rest

def printMembers (l : Layout) : List (Text × Value) → List Text
  | [] => []
  | (k, v) :: rest => Text.concat [printString k, ": ", printWith l v] :: printMembers l rest

end

def print (v : Value) : Text := printWith (.indented 0) v

def printLine (v : Value) : Text := printWith .oneLine v

end BundleGraph.Json
