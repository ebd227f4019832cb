import BundleGraph.Text.CodePoint

/-!
# Paths

Paths as they are named. Empty components and single dots say nothing and are dropped; a double dot
stays, since what it means depends on the directories there. Two slashes at the start are kept
apart from one.
-/
namespace BundleGraph

/-- Where a path starts: at the working directory, or at the root written with one or two
slashes. -/
inductive Anchor where
  | here
  | root
  | doubleRoot
deriving DecidableEq

/-- A path: where it starts and its components. -/
structure Path where
  anchor : Anchor
  parts : List Text
deriving DecidableEq

namespace Path

/-- How many slashes a path starts with decides its anchor. -/
def anchorOf (t : Text) : Anchor :=
  match (t.takeWhile (· = CodePoint.scalar '/')).length with
  | 0 => .here
  | 2 => .doubleRoot
  | _ => .root

def ofText (t : Text) : Path where
  anchor := anchorOf t
  parts := (t.splitAt '/').filter fun part => part ≠ [] ∧ part ≠ Text.ofString "."

def anchorText : Anchor → Text
  | .here => ""
  | .root => "/"
  | .doubleRoot => "//"

/-- The text that names a path; a single dot for the working directory. -/
def toText (p : Path) : Text :=
  if p.anchor = .here ∧ p.parts = [] then "."
  else Text.concat [anchorText p.anchor, Text.joinWith "/" p.parts]

/-- The name that leads to the directory around. -/
def up : Text := ".."

def child (p : Path) (name : Text) : Path := { p with parts := p.parts ++ [name] }

/-- The path that a double dot leads to from a path without links. -/
def above (p : Path) : Path :=
  match p.parts.getLast? with
  | none => if p.anchor = .here then p.child up else p
  | some name => if name = up then p.child up else { p with parts := p.parts.dropLast }

/-- The directory that holds a path. A path without components is its own parent. -/
def parent (p : Path) : Path := { p with parts := p.parts.dropLast }

end Path

end BundleGraph
