import BundleGraph.Audit.Layout
import BundleGraph.Bundle.Loading
import BundleGraph.Command.Request
import BundleGraph.Files.Writing
import BundleGraph.Host
import BundleGraph.Log
import BundleGraph.Settings.Loading

/-!
# Running a command

What a command line does to a file tree: what it prints, what it logs, how it ends and which files
it leaves. A defect of a document is told in one line. A fault ends the run where it arises, and
what was printed before it stays.
-/
namespace BundleGraph

inductive Ending where
  | exit (code : Nat)
  | misuse (m : Misuse)
  | fault (f : Fault)
deriving DecidableEq

structure Outcome where
  output : Text := []
  log : Text := []
  ending : Ending
  files : FileTree

namespace Command

open Console (Block)

def version : Text := "0.1.0"

def errorLine (message : Text) : Block := .marked (Text.concat ["[red]Error:[/red] ", message])

def printing (host : Host) (files : FileTree) (log : Text) (blocks : List Block)
    (ending : Ending) : Outcome :=
  match Console.print host.terminal blocks with
  | (output, none) => ⟨output, log, ending, files⟩
  | (output, some f) => ⟨output, log, .fault f, files⟩

def failing (host : Host) (files : FileTree) (log : Text) (message : Text) : Outcome :=
  printing host files log [errorLine message] (.exit 1)

def faulting (files : FileTree) (log : Text) (f : Fault) : Outcome := ⟨[], log, .fault f, files⟩

/-- What is told about settings that cannot be loaded. A number that is too long is told like a
defect. -/
def settingsComplaint (host : Host) : LoadFailure → Except Fault Text
  | .error e => .ok (e.message host.help?)
  | .fault (.integerTooLong limit digits) => .ok (Fault.integerTooLong limit digits).message
  | .fault f => .error f

def withoutSettings (host : Host) (files : FileTree) (failure : LoadFailure) : Outcome :=
  match settingsComplaint host failure with
  | .ok message => failing host files [] message
  | .error f => faulting files [] f

def withoutDescriptor (host : Host) (files : FileTree) : LoadFailure → Outcome
  | .error e => failing host files [] (e.message host.help?)
  | .fault f => faulting files [] f

def format? (t : Text) : Option Format := Format.all.find? fun f => f.name = t

/-- The format of a report: the one asked for or else the one in the settings. An empty text asks
for none. -/
def chosenFormat (r : ValidateRequest) (s : Settings) : Except Text Format :=
  match r.format with
  | none => .ok s.format
  | some t =>
    if t.isEmpty then .ok s.format
    else match format? t with
      | some f => .ok f
      | none => .error (Text.concat ["Invalid format '", t, "'. Must be one of: ",
          Text.joinWith ", " (Format.all.map Format.name)])

/-- The name under which a bundle is announced: its own name or else its path. -/
def announcedName (d : Descriptor) (path : Path) : Text :=
  match d.bundle with
  | none => path.toText
  | some name => if name.isEmpty then path.toText else name

/-- What is printed before a report. Nothing may stand before a JSON document. -/
def announcement (d : Descriptor) (path : Path) : Format → List Block
  | .json => []
  | _ => [.marked (Text.concat ["[green]Validating bundle:[/green] ", announcedName d path])]

def validateLoaded (host : Host) (files : FileTree) (r : ValidateRequest) (s : Settings)
    (f : Format) (d : Descriptor) : Outcome :=
  let modules := d.manifests s.expectedBase
  let log := Log.render (if r.verbose then .debug else s.level)
    (.loaded d.entries.length r.descriptor :: Log.ofAudit Rule.defaults s.expectedBase modules)
  let opening := announcement d r.descriptor f
  match audit Rule.defaults s.expectedBase modules with
  | .ok report => printing host files log (opening ++ report.blocks f) (.exit report.exitCode)
  | .error fault => printing host files log opening (.fault fault)

def validate (host : Host) (files : FileTree) (r : ValidateRequest) : Outcome :=
  match Settings.load host.limits files r.settings with
  | .error failure => withoutSettings host files failure
  | .ok s =>
    match chosenFormat r s with
    | .error message => failing host files [] message
    | .ok f =>
      match Descriptor.load host.limits files r.descriptor with
      | .error failure => withoutDescriptor host files failure
      | .ok d => validateLoaded host files r s f d

/-- The dependency map of modules that have a base module. -/
def graphMap (expected : Name) (modules : List Manifest) : Except Failure DependencyMap :=
  match Inspection.baseViolation? expected modules with
  | some v => .error (.violation v)
  | none => DependencyMap.ofModules modules

def deliver (host : Host) (files : FileTree) (log : Text) (diagram : Text) :
    Option Path → Outcome
  | none => printing host files log [.plain diagram] (.exit 0)
  | some path =>
    match files.saveText path diagram with
    | (files', some f) => faulting files' log f
    | (files', none) =>
      printing host files' log
        [.marked (Text.concat ["[green]Diagram written:[/green] ", path.toText])] (.exit 0)

def graphLoaded (host : Host) (files : FileTree) (r : GraphRequest) (s : Settings)
    (d : Descriptor) : Outcome :=
  let modules := d.manifests s.expectedBase
  let loaded := Event.loaded d.entries.length r.descriptor
  match graphMap s.expectedBase modules with
  | .error (.violation v) => failing host files (Log.render s.level [loaded]) v.message
  | .error (.fault f) => faulting files (Log.render s.level [loaded]) f
  | .ok m =>
    deliver host files (Log.render s.level (loaded :: Log.ofDiagram m))
      (Diagram.render m modules d.bundle) r.output

def graph (host : Host) (files : FileTree) (r : GraphRequest) : Outcome :=
  match Settings.load host.limits files r.settings with
  | .error failure => withoutSettings host files failure
  | .ok s =>
    match Descriptor.load host.limits files r.descriptor with
    | .error failure => withoutDescriptor host files failure
    | .ok d => graphLoaded host files r s d

def answer (host : Host) (files : FileTree) : Request → Outcome
  | .version =>
    printing host files [] [.marked (Text.concat ["bundledeps version ", version])] (.exit 0)
  | .validate r => validate host files r
  | .graph r => graph host files r

def run (host : Host) (files : FileTree) (arguments : List Text) : Outcome :=
  match Request.ofArguments arguments with
  | .error (.misuse m) => ⟨[], [], .misuse m, files⟩
  | .error (.fault f) => faulting files [] f
  | .ok request => answer host files request

end Command

end BundleGraph
