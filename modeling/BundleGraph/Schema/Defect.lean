import BundleGraph.Json.Value

/-!
# Defects of a document

What is wrong with a JSON value that should follow a schema, where it is wrong, and which value
stands there. `report` writes the defects of one document.
-/
namespace BundleGraph.Schema

open Json (Value)

inductive Step where
  | key (name : Text)
  | index (position : Nat)
deriving DecidableEq

inductive Kind where
  | missing
  | notText
  | notUnicode
  | emptyText
  | notFlag
  | unreadableFlag
  | notList
  | notTuple
  | notRecord (title : Text)
  | unknownKey
  | notAmong (choices : List Text)
  | rejected (reason : Text)
  | frozen
deriving DecidableEq

/-- A defect at a location, with the value that was found there. -/
structure Defect where
  location : List Step
  kind : Kind
  found : Value

def Kind.code : Kind → Text
  | missing => "missing"
  | notText => "string_type"
  | notUnicode => "string_unicode"
  | emptyText => "string_too_short"
  | notFlag => "bool_type"
  | unreadableFlag => "bool_parsing"
  | notList => "list_type"
  | notTuple => "tuple_type"
  | notRecord _ => "model_type"
  | unknownKey => "extra_forbidden"
  | notAmong _ => "enum"
  | rejected _ => "value_error"
  | frozen => "frozen_instance"

/-- Alternatives as they are read out: the last one is set apart by "or". -/
def alternatives : List Text → Text
  | [] => []
  | [a] => a
  | [a, b] => Text.concat [a, " or ", b]
  | a :: rest => Text.concat [a, ", ", alternatives rest]

def Kind.message : Kind → Text
  | missing => "Field required"
  | notText => "Input should be a valid string"
  | notUnicode =>
    "Input should be a valid string, unable to parse raw data as a unicode string"
  | emptyText => "String should have at least 1 character"
  | notFlag => "Input should be a valid boolean"
  | unreadableFlag => "Input should be a valid boolean, unable to interpret input"
  | notList => "Input should be a valid list"
  | notTuple => "Input should be a valid tuple"
  | notRecord title =>
    Text.concat ["Input should be a valid dictionary or instance of ", title]
  | unknownKey => "Extra inputs are not permitted"
  | notAmong choices =>
    Text.concat ["Input should be ", alternatives (choices.map Text.quoted)]
  | rejected reason => Text.concat ["Value error, ", reason]
  | frozen => "Instance is frozen"

/-- The defect seen from the value that holds the faulty part under `step`. -/
def Defect.under (step : Step) (d : Defect) : Defect := { d with location := step :: d.location }

/-- A step in a report; a key that holds a dot is set in backquotes. -/
def Step.shown : Step → Text
  | key name => if .scalar '.' ∈ name then Text.concat ["\x60", name, "\x60"] else name
  | index i => Text.ofNat i

/-- The longest part of a text from its start that fits in `bytes` bytes. -/
def takeBytes (bytes : Nat) : Text → Text
  | [] => []
  | c :: rest =>
    if c.utf8Size ≤ bytes then c :: takeBytes (bytes - c.utf8Size) rest else []

def abridged (t : Text) : Text :=
  if t.utf8Size ≤ 50 then t
  else Text.concat [takeBytes 25 t, "...", (takeBytes 24 t.reverse).reverse]

/-- The lines of a report about one defect. The last one names a page about its kind, if there are
such pages under an address. -/
def Defect.lines (help? : Option Text) (d : Defect) : List Text :=
  (if d.location.isEmpty then [] else [Text.joinWith "." (d.location.map Step.shown)]) ++
    [Text.concat ["  ", d.kind.message, " [type=", d.kind.code, ", input_value=",
        abridged d.found.shown, ", input_type=", d.found.kindName, "]"]] ++
    (help?.map fun address =>
      Text.concat ["    For further information visit ", address, d.kind.code]).toList

def report (help? : Option Text) (title : Text) (defects : List Defect) : Text :=
  let count := Text.concat [Text.ofNat defects.length,
    if defects.length = 1 then " validation error for " else " validation errors for ", title]
  Text.joinWith "\n" (count :: defects.flatMap (Defect.lines help?))

end BundleGraph.Schema
