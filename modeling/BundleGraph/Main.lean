import BundleGraph.Command.Run

/-!
# The program

The outer layer. It takes a picture of the places on disk that a command line can reach, runs the
command on that picture, and carries out what the outcome says.
-/
namespace BundleGraph.Program

open Console (Terminal)

def paths : Request → List Path
  | .version => []
  | .validate r => r.descriptor :: r.settings.toList
  | .graph r => r.descriptor :: (r.settings.toList ++ r.output.toList)

def placesOf (t : FileTree) (p : Path) : List Location :=
  (List.range (p.parts.length + 1)).map fun n => t.resolve { p with parts := p.parts.take n }

def settingsPlaces (l : Location) : List Location :=
  (List.range (l.length + 1)).flatMap fun n => [l.take n, l.take n ++ [Settings.fileName]]

def reach (directory : Location) (r : Request) : List Location :=
  settingsPlaces directory ++ (paths r).flatMap (placesOf { workingDirectory := directory })

/-- The name of a place for the operating system. -/
def nameOf (l : Location) : String := ((FileTree.pathOf l).toText.toString?).getD ""

/-- A picture with the file at a place on disk, which is closed if it cannot be read. -/
def observeFile (t : FileTree) (l : Location) : IO FileTree := do
  try
    return t.put l (.file (← IO.FS.readBinFile (nameOf l)).toList)
  catch _ =>
    return { t.put l (.file []) with closed := l :: t.closed }

/-- A picture with what stands at a place on disk. A directory behind which nothing can be reached
is closed. -/
def observe (t : FileTree) (l : Location) : IO FileTree := do
  try
    let place ← IO.FS.realPath (nameOf l)
    if ← place.isDir then return t.put l .directory
    observeFile t l
  catch
    | .permissionDenied .. => return { t with closed := l.dropLast :: t.closed }
    | _ => return t

def picture (directory : Location) (places : List Location) : IO FileTree :=
  places.foldlM observe { workingDirectory := directory }

def askedColumns? : IO (Option Nat) := return (← IO.getEnv "COLUMNS").bind String.toNat?

/-- The host of this program: a plain one that is as wide as the environment asks for. -/
def host : IO Host := do
  match ← askedColumns? with
  | none => return .plain
  | some n =>
    if h : 0 < n then
      let terminal : Terminal := { Terminal.plain with width := n, width_pos := h }
      return { Host.plain with terminal }
    else return .plain

/-- Makes the disk agree with what changed from `before` to `after`. -/
def carryOut (before after : FileTree) : IO Unit :=
  after.entries.forM fun (l, e) => do
    if before.entry? l ≠ some e then
      match e with
      | .directory => IO.FS.createDirAll (nameOf l)
      | .file bytes => IO.FS.writeBinFile (nameOf l) ⟨bytes.toArray⟩

def write (stream : IO.FS.Stream) (t : Text) : IO Unit := do
  stream.write ⟨(Utf8.encode t).toArray⟩
  stream.flush

/-- Tells how a run ended, as an exit code. -/
def conclude : Ending → IO UInt32
  | .exit code => return code.toUInt32
  | .misuse m => do
    write (← IO.getStderr) (Text.concat ["Error: ", m.message, "\n"])
    return 2
  | .fault f => do
    write (← IO.getStderr) (f.message ++ ("\n" : Text))
    return 1

end BundleGraph.Program

open BundleGraph in
def main (args : List String) : IO UInt32 := do
  let arguments := args.map Text.ofString
  let directory := (Path.ofText (Text.ofString (← IO.currentDir).toString)).parts
  let places := match Request.ofArguments arguments with
    | .ok request => Program.reach directory request
    | .error _ => []
  let before ← Program.picture directory places
  let outcome := Command.run (← Program.host) before arguments
  Program.carryOut before outcome.files
  Program.write (← IO.getStderr) outcome.log
  Program.write (← IO.getStdout) outcome.output
  Program.conclude outcome.ending
