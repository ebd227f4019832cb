import BundleGraph.Text.CodePoint

/-!
# Arguments

Reading the arguments of a command against the options that it knows. An option is given by its
long name or by its letter, with the value behind it or as the next argument; letters may share one
argument. Two hyphens end the options. Where an option is repeated the last value holds.
-/
namespace BundleGraph

/-- An option: its long name, its letter, and whether a value belongs to it. -/
structure Switch where
  name : Text
  letter : Option CodePoint := none
  takesValue : Bool := true
deriving DecidableEq

/-- A use of a command that its options and arguments do not allow. -/
inductive Misuse where
  | unknownOption (argument : Text)
  | missingValue (option : Text)
  | needlessValue (option : Text)
  | missingCommand
  | unknownCommand (name : Text)
  | missingDescriptor
  | extraArgument (argument : Text)
deriving DecidableEq

def Misuse.message : Misuse → Text
  | unknownOption argument => Text.concat ["No such option: ", argument]
  | missingValue option => Text.concat ["Option '", option, "' requires an argument."]
  | needlessValue option => Text.concat ["Option '", option, "' does not take a value."]
  | missingCommand => "Missing command."
  | unknownCommand name => Text.concat ["No such command '", name, "'."]
  | missingDescriptor => "Missing argument 'DESCRIPTOR'."
  | extraArgument argument => Text.concat ["Got unexpected extra argument (", argument, ")"]

/-- Arguments that have been read: the options with their values, the latest first, and the
others in order. -/
structure Arguments where
  options : List (Text × Text) := []
  others : List Text := []
deriving DecidableEq

namespace Arguments

def value? (a : Arguments) (s : Switch) : Option Text := a.options.lookup s.name

def has (a : Arguments) (s : Switch) : Bool := (a.value? s).isSome

def set (a : Arguments) (s : Switch) (value : Text) : Arguments :=
  { a with options := (s.name, value) :: a.options }

def append (a : Arguments) (others : List Text) : Arguments :=
  { a with others := a.others ++ others }

/-- The arguments with a cluster of letters read, and the option that still waits for its value. -/
def readLetters (switches : List Switch) (argument : Text) (a : Arguments) :
    Text → Except Misuse (Arguments × Option Switch)
  | [] => .ok (a, none)
  | c :: rest =>
    match switches.find? fun s => s.letter = some c with
    | none => .error (.unknownOption argument)
    | some s =>
      if s.takesValue then
        if rest.isEmpty then .ok (a, some s) else .ok (a.set s rest, none)
      else readLetters switches argument (a.set s []) rest

/-- The arguments with an option read, and the option that still waits for its value. -/
def readOption (switches : List Switch) (argument : Text) (a : Arguments) :
    Except Misuse (Arguments × Option Switch) :=
  let name := argument.takeWhile (· ≠ CodePoint.scalar '=')
  let value? := (argument.drop name.length).tail?
  match switches.find? fun s => s.name = name with
  | some s =>
    match s.takesValue, value? with
    | true, some value => .ok (a.set s value, none)
    | true, none => .ok (a, some s)
    | false, none => .ok (a.set s [], none)
    | false, some _ => .error (.needlessValue name)
  | none =>
    if argument.take 2 = Text.ofString "--" then .error (.unknownOption argument)
    else readLetters switches argument a (argument.drop 1)

/-- Whether an argument is an option: a hyphen and more. -/
def isOption (argument : Text) : Bool :=
  argument.take 1 = Text.ofString "-" && argument.length ≠ 1

/-- All arguments read. `waiting` is an option whose value comes next. If options may not follow
other arguments, everything from the first other argument on is left unread. -/
def readAll (switches : List Switch) (mixed : Bool) (waiting : Option Switch) (a : Arguments) :
    List Text → Except Misuse Arguments
  | [] =>
    match waiting with
    | none => .ok a
    | some s => .error (.missingValue s.name)
  | argument :: rest =>
    match waiting with
    | some s => readAll switches mixed none (a.set s argument) rest
    | none =>
      if argument = Text.ofString "--" then .ok (a.append rest)
      else if isOption argument then
        match readOption switches argument a with
        | .error m => .error m
        | .ok (a', waiting') => readAll switches mixed waiting' a' rest
      else if mixed then readAll switches mixed none (a.append [argument]) rest
      else .ok (a.append (argument :: rest))

def read (switches : List Switch) (mixed : Bool) (arguments : List Text) :
    Except Misuse Arguments :=
  readAll switches mixed none {} arguments

end Arguments

end BundleGraph
