import BundleGraph.Text.Blank
import BundleGraph.Text.Lower
import BundleGraph.Text.Width

/-!
# Emoji

A name between two colons stands for a picture. A name may end in the variant of the picture that it
asks for: the coloured one or the one that is drawn as text. A code whose name stands for nothing is
left as it is.
-/
namespace BundleGraph

/-- A code point that means something in marked-up text: a colon, a bracket or a backslash. -/
def CodePoint.isMark (c : CodePoint) : Bool := c = ':' || c = '[' || c = ']' || c = '\\'

namespace Emoji

/-- The pictures that names in lower case stand for. No mark is part of a picture. -/
structure Table where
  find? : Text → Option Text
  unmarked : ∀ name picture, find? name = some picture → ∀ c ∈ picture, ¬c.isMark

def Table.empty : Table := ⟨fun _ => none, nofun⟩

/-- The text up to the next colon, if no white space stands before it, and the rest behind it. -/
def code? : Text → Option (Text × Text)
  | [] => none
  | c :: rest =>
    if c = ':' then some ([], rest)
    else if c.isBlank then none
    else (code? rest).map fun (name, after) => (c :: name, after)

theorem code?_length {t name after : Text} (h : code? t = some (name, after)) :
    after.length < t.length := by
  induction t generalizing name with
  | nil => simp [code?] at h
  | cons c rest ih =>
    rw [code?] at h
    split at h
    · obtain ⟨-, rfl⟩ := Prod.mk.inj (Option.some.inj h)
      simp
    · split at h
      · simp at h
      · obtain ⟨⟨name', after'⟩, h', heq⟩ := Option.map_eq_some_iff.1 h
        obtain ⟨-, rfl⟩ := Prod.mk.inj heq
        exact Nat.lt_succ_of_lt (ih h')

def textSelector : CodePoint := '\uFE0E'

/-- A name without the variant that it asks for, and the selector of the variant. -/
def variant (name : Text) : Text × Text :=
  let coloured := Text.ofString "-emoji"
  let drawn := Text.ofString "-text"
  if coloured.isSuffixOf name then
    (name.take (name.length - coloured.length), [CodePoint.pictureSelector])
  else if drawn.isSuffixOf name then (name.take (name.length - drawn.length), [textSelector])
  else (name, [])

namespace Table

def picture (table : Table) (name : Text) : Text :=
  match table.find? (variant name).1.lowerCase with
  | some picture => picture ++ (variant name).2
  | none => Text.concat [":", name, ":"]

/-- A text with the pictures for its codes. -/
def draw (table : Table) : Text → Text
  | [] => []
  | c :: rest =>
    if c = ':' then
      match _h : code? rest with
      | some (name, after) => table.picture name ++ draw table after
      | none => c :: draw table rest
    else c :: draw table rest
termination_by t => t.length
decreasing_by
  · exact Nat.lt_succ_of_lt (code?_length _h)
  · simp
  · simp

end Table

end Emoji

end BundleGraph
