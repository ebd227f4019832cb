import BundleGraph.Files.Document
import BundleGraph.Settings

/-!
# Loading settings

Settings are read from the file at a given path or else from the nearest settings file, which is
looked for from a directory outwards. Where there is none the defaults hold.
-/
namespace BundleGraph.Settings

def fileName : Text := ".bundledeps.json"

def ofValue : Json.Value → Except DocumentDefect Settings
  | .object members => (decode (.object members)).mapError (.invalid title)
  | v => .error (.notObject v.kindName)

def loadEntry (limits : Json.Limits) (path : Path) : FileEntry → Except LoadFailure Settings
  | .directory => .error (.error ⟨.settings, path, .isDirectory⟩)
  | .file bytes => Document.load limits .settings path bytes ofValue

def loadFrom (limits : Json.Limits) (files : FileTree) (path : Path) :
    Except LoadFailure Settings :=
  match files.lookup path with
  | .error f => .error (.fault f)
  | .ok none => .error (.error ⟨.settings, path, .missing⟩)
  | .ok (some entry) =>
    if files.isClosed path then .error (.error ⟨.settings, path, .forbidden⟩)
    else loadEntry limits path entry

/-- What keeps the places from being visited that names lead to from a path on. -/
def visitFault? (visited : Path) : List Text → Option Fault
  | [] => none
  | name :: rest =>
    if name = Path.up then visitFault? visited.above rest
    else match (visited.child name).fault? with
      | some f => some f
      | none => visitFault? (visited.child name) rest

/-- The path of the settings file that is nearest to a directory. -/
def find (files : FileTree) (directory : Path) : Except Fault (Option Path) :=
  match visitFault? { directory with parts := [] } directory.parts with
  | some f => .error f
  | none => files.searchUpward fileName (files.resolve directory)

def here : Path := ⟨.here, []⟩

/-- The settings at a path, or those that are nearest to the working directory. -/
def load (limits : Json.Limits) (files : FileTree) : Option Path → Except LoadFailure Settings
  | some path => loadFrom limits files path
  | none =>
    match find files here with
    | .error f => .error (.fault f)
    | .ok none => .ok {}
    | .ok (some path) => loadFrom limits files path

end BundleGraph.Settings
