import BundleGraph.Files.Tree
import BundleGraph.Text.Utf8

/-!
# Writing into file trees

Making directories and saving a text. Directories are made from the path that is asked for
upwards, until one is found to stand on, and then downwards again, so a double dot after a missing
name makes that name.
-/
namespace BundleGraph.FileTree

/-- The place of a path whose last name may be missing, with what stands there. -/
def locateNew (t : FileTree) (p : Path) : Except LookupError (Location × Option FileEntry) :=
  match t.locate p with
  | .ok l => .ok (l, t.entry? l)
  | .error .missing =>
    match p.parts.getLast? with
    | none => .error .missing
    | some name => (t.locate p.parent).map fun l => (l ++ [name], none)
  | .error e => .error e

def makeDirectory (t : FileTree) (p : Path) : Except Fault FileTree :=
  match t.locateNew p with
  | .ok (l, none) => .ok (t.put l .directory)
  | .ok (_, some .directory) => .ok t
  | .ok (_, some (.file _)) => .error (.alreadyExists p)
  | .error e => .error (e.fault p)

/-- The tree with a directory at a path and all directories around it. -/
def makeDirectories (t : FileTree) (p : Path) : Except Fault FileTree :=
  match t.makeDirectory p with
  | .ok t' => .ok t'
  | .error (.missing q) =>
    if _h : p.parts = [] then .error (.missing q)
    else (t.makeDirectories p.parent).bind fun t' => t'.makeDirectory p
  | .error f => .error f
termination_by p.parts.length
decreasing_by
  have := List.length_pos_iff.2 _h
  simp only [Path.parent, List.length_dropLast]
  omega

/-- The tree with the bytes in the file at a path, made unless it is there. -/
def writeFile (t : FileTree) (p : Path) (bytes : List UInt8) : Except Fault FileTree :=
  match t.locateNew p with
  | .ok (_, some .directory) => .error (.isDirectory p)
  | .ok (l, _) => if l ∈ t.closed then .error (.forbidden p) else .ok (t.put l (.file bytes))
  | .error e => .error (e.fault p)

/-- The tree after a text was saved at a path, and what went wrong. A text without a UTF-8 form
leaves an empty file, and directories that were made stay. -/
def saveText (t : FileTree) (p : Path) (text : Text) : FileTree × Option Fault :=
  let bytes := if text.hasSurrogate then [] else Utf8.encode text
  match t.makeDirectories p.parent with
  | .error f => (t, some f)
  | .ok t' =>
    match t'.writeFile p bytes with
    | .error f => (t', some f)
    | .ok t'' => (t'', (text.findIdx? CodePoint.isSurrogate).map (Fault.unencodable text))

end BundleGraph.FileTree
