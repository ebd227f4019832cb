import BundleGraph.Command.Arguments
import BundleGraph.Files.Tree

/-!
# Requests

What a command line asks for: the version, the validation of a bundle, or its diagram. Paths are
checked before anything is missed or found too much.
-/
namespace BundleGraph

structure ValidateRequest where
  descriptor : Path
  format : Option Text := none
  settings : Option Path := none
  verbose : Bool := false
deriving DecidableEq

structure GraphRequest where
  descriptor : Path
  output : Option Path := none
  settings : Option Path := none
deriving DecidableEq

inductive Request where
  | version
  | validate (r : ValidateRequest)
  | graph (r : GraphRequest)
deriving DecidableEq

inductive RequestError where
  | misuse (m : Misuse)
  | fault (f : Fault)
deriving DecidableEq

namespace Request

def versionSwitch : Switch := ⟨"--version", some 'v', false⟩

def formatSwitch : Switch := ⟨"--format", some 'f', true⟩

def settingsSwitch : Switch := ⟨"--config", some 'c', true⟩

def verboseSwitch : Switch := ⟨"--verbose", none, false⟩

def outputSwitch : Switch := ⟨"--output", some 'o', true⟩

/-- A path that can be passed to the file system. -/
def checkedPath (t : Text) : Except RequestError Path :=
  let p := Path.ofText t
  match p.fault? with
  | some f => .error (.fault f)
  | none => .ok p

def pathOption (a : Arguments) (s : Switch) : Except RequestError (Option Path) :=
  match a.value? s with
  | none => .ok none
  | some t => (checkedPath t).map some

/-- The descriptor, the only argument besides the options. -/
def descriptorArgument (a : Arguments) : Except RequestError Path :=
  match a.others with
  | [] => .error (.misuse .missingDescriptor)
  | t :: rest => (checkedPath t).bind fun p =>
    match rest with
    | [] => .ok p
    | extra :: _ => .error (.misuse (.extraArgument extra))

def readArguments (switches : List Switch) (mixed : Bool) (arguments : List Text) :
    Except RequestError Arguments :=
  (Arguments.read switches mixed arguments).mapError .misuse

def ofValidate (arguments : List Text) : Except RequestError Request := do
  let a ← readArguments [formatSwitch, settingsSwitch, verboseSwitch] true arguments
  let settings ← pathOption a settingsSwitch
  let descriptor ← descriptorArgument a
  return .validate ⟨descriptor, a.value? formatSwitch, settings, a.has verboseSwitch⟩

def ofGraph (arguments : List Text) : Except RequestError Request := do
  let a ← readArguments [outputSwitch, settingsSwitch] true arguments
  let output ← pathOption a outputSwitch
  let settings ← pathOption a settingsSwitch
  let descriptor ← descriptorArgument a
  return .graph ⟨descriptor, output, settings⟩

/-- Whether arguments ask for the version before they name a command. -/
def asksVersion (arguments : List Text) : Except RequestError Bool :=
  (readArguments [versionSwitch] false arguments).map fun a => a.has versionSwitch

/-- The request that a command and its arguments spell. What stands in the place of a command and
is none is read as an option. -/
def ofCommand (arguments : List Text) : Except RequestError Request :=
  match arguments with
  | [] => .error (.misuse .missingCommand)
  | name :: rest =>
    if name = Text.ofString "validate" then ofValidate rest
    else if name = Text.ofString "graph" then ofGraph rest
    else (asksVersion arguments).bind fun asked =>
      if asked then .ok .version else .error (.misuse (.unknownCommand name))

def ofArguments (arguments : List Text) : Except RequestError Request :=
  (readArguments [versionSwitch] false arguments).bind fun a =>
    if a.has versionSwitch then .ok .version else ofCommand a.others

end Request

end BundleGraph
