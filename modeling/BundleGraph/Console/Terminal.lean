import BundleGraph.Console.Emoji

/-!
# Terminals

What the output of a program depends on besides the program: how wide its lines are, which emoji
there are, which parameters of tags can be read, and which code points can be written. The output is
UTF-8 without colours. A lone surrogate has no form in it, but one that stands for a byte may be
written as that byte.
-/
namespace BundleGraph.Console

/-- A terminal. A handler in a tag has a parameter, which is a text in a language of its own. A
style is used where the layout leaves something of the text that its tag covers; tags are counted
along the pieces of a line. -/
structure Terminal where
  width : Nat
  emoji : Emoji.Table
  readsHandler : Text → Bool
  usesStyle : (line : Text) → (tag : Nat) → Bool
  numberDigits : Nat
  writesBytes : Bool
  width_pos : 0 < width := by decide

namespace Terminal

/-- A terminal of eighty columns without emoji and handlers. -/
def plain : Terminal where
  width := 80
  emoji := .empty
  readsHandler _ := false
  usesStyle _ _ := true
  numberDigits := 4300
  writesBytes := false

def writes (c : Terminal) (x : CodePoint) : Bool := !x.isSurrogate || (c.writesBytes && x.isByte)

end Terminal

end BundleGraph.Console
