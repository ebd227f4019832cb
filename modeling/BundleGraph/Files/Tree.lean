import BundleGraph.Assoc
import BundleGraph.Fault

/-!
# File trees

A tree of directories and files without links, and a working directory in it. Some of them may be
closed: what is in a closed directory cannot be reached, and a closed file can be found but neither
read nor written. Looking up a path walks from directory to directory, so a double dot after a
missing name leads nowhere; resolving a path is done on its names alone.
-/
namespace BundleGraph

/-- A place in a tree: the names from the root on. -/
abbrev Location : Type := List Text

inductive FileEntry where
  | file (bytes : List UInt8)
  | directory
deriving DecidableEq

/-- A file tree; the root is always a directory. -/
structure FileTree where
  entries : List (Location × FileEntry) := []
  workingDirectory : Location := []
  closed : List Location := []

instance (t : FileTree) (l : Location) : Decidable (l ∈ t.closed) := inferInstance

inductive LookupError where
  | missing
  | notDirectory
  | nameTooLong
  | forbidden
  | unspeakable (fault : Fault)
deriving DecidableEq

/-- What keeps a path from being passed to the file system: a lone surrogate that stands for no
byte, or a zero byte. -/
def Path.fault? (p : Path) : Option Fault :=
  match p.toText.findIdx? fun c => c.isSurrogate && !c.isByte with
  | some offset => some (.unencodable p.toText offset)
  | none => if CodePoint.scalar '\x00' ∈ p.toText then some .zeroInPath else none

def LookupError.fault (p : Path) : LookupError → Fault
  | missing => .missing p
  | notDirectory => .notDirectory p
  | nameTooLong => .nameTooLong p
  | forbidden => .forbidden p
  | unspeakable f => f

namespace FileTree

def entry? (t : FileTree) (l : Location) : Option FileEntry :=
  if l = [] then some .directory else t.entries.lookup l

def put (t : FileTree) (l : Location) (e : FileEntry) : FileTree :=
  { t with entries := Assoc.insert l e t.entries }

def maxNameBytes : Nat := 255

def maxPathBytes : Nat := 4095

def walk (t : FileTree) (l : Location) : List Text → Except LookupError Location
  | [] => .ok l
  | name :: rest =>
    match t.entry? l with
    | none => .error .missing
    | some (.file _) => .error .notDirectory
    | some .directory =>
      if l ∈ t.closed then .error .forbidden
      else if name = Path.up then t.walk l.dropLast rest
      else if maxNameBytes < name.nameSize then .error .nameTooLong
      else if (t.entry? (l ++ [name])).isSome then t.walk (l ++ [name]) rest
      else .error .missing

def start (t : FileTree) (p : Path) : Location :=
  if p.anchor = .here then t.workingDirectory else []

def locate (t : FileTree) (p : Path) : Except LookupError Location :=
  match p.fault? with
  | some f => .error (.unspeakable f)
  | none =>
    if maxPathBytes < p.toText.nameSize then .error .nameTooLong else t.walk (t.start p) p.parts

/-- The entry that a path names. A path that leads nowhere names none, but one that is too long or
leads through a closed directory is a fault. -/
def lookup (t : FileTree) (p : Path) : Except Fault (Option FileEntry) :=
  match t.locate p with
  | .ok l => .ok (t.entry? l)
  | .error .nameTooLong => .error (.nameTooLong p)
  | .error .forbidden => .error (.forbidden p)
  | .error _ => .ok none

/-- Whether a path names an entry that is closed. -/
def isClosed (t : FileTree) (p : Path) : Bool :=
  match t.locate p with
  | .ok l => l ∈ t.closed
  | .error _ => false

/-- The place that a path names if nothing on the way were missing: a double dot undoes the name
before it. -/
def resolve (t : FileTree) (p : Path) : Location :=
  p.parts.foldl (fun l name => if name = Path.up then l.dropLast else l ++ [name]) (t.start p)

def pathOf (l : Location) : Path := ⟨.root, l⟩

/-- The nearest entry of a name in a directory or in one of those around it. -/
def searchUpward (t : FileTree) (name : Text) (l : Location) : Except Fault (Option Path) :=
  let candidate := pathOf (l ++ [name])
  match t.lookup candidate with
  | .error f => .error f
  | .ok (some _) => .ok (some candidate)
  | .ok none => if _h : l = [] then .ok none else t.searchUpward name l.dropLast
termination_by l.length
decreasing_by
  have := List.length_pos_iff.2 _h
  simp only [List.length_dropLast]
  omega

end FileTree

end BundleGraph
