import BundleGraph.Violation
import BundleGraph.Files.Path

/-!
# Faults

What stops a run without being the fault of the modules: a step taken too early, a limit of the
reader, a place that cannot be reached or written, a line that cannot be printed.
-/
namespace BundleGraph

/-- A reason to give up that no report describes. -/
inductive Fault where
  | noBaseModule
  | mapNotBuilt
  | noSuchModule (name : Name)
  | integerTooLong (limit digits : Nat)
  | nestingTooDeep
  | nameTooLong (path : Path)
  | forbidden (path : Path)
  | missing (path : Path)
  | zeroInPath
  | isDirectory (path : Path)
  | notDirectory (path : Path)
  | alreadyExists (path : Path)
  | unmatchedTag (name : Text)
  | unreadableHandler (parameter : Text)
  | unreadableNumber (digits : Text)
  | unencodable (text : Text) (offset : Nat)
deriving DecidableEq

/-- The wording about lone surrogates that stand in a text from an offset on. -/
def unencodableMessage (text : Text) (offset : Nat) : Text :=
  match (text.drop offset).takeWhile CodePoint.isSurrogate with
  | [c] =>
    Text.concat ["'utf-8' codec can't encode character '\\u", Text.hex 4 c.toNat,
      "' in position ", Text.ofNat offset, ": surrogates not allowed"]
  | run =>
    Text.concat ["'utf-8' codec can't encode characters in position ", Text.ofNat offset, "-",
      Text.ofNat (offset + run.length - 1), ": surrogates not allowed"]

def Fault.message : Fault → Text
  | noBaseModule => "Cannot build a dependency map without a base module."
  | mapNotBuilt => "Dependency map has not been built yet"
  | noSuchModule name => name
  | integerTooLong limit digits =>
    Text.concat ["Exceeds the limit (", Text.ofNat limit,
      " digits) for integer string conversion: value has ", Text.ofNat digits,
      " digits; use sys.set_int_max_str_digits() to increase the limit"]
  | nestingTooDeep => "maximum recursion depth exceeded"
  | nameTooLong path => Text.concat ["[Errno 36] File name too long: ", path.toText.quoted]
  | forbidden path => Text.concat ["[Errno 13] Permission denied: ", path.toText.quoted]
  | missing path => Text.concat ["[Errno 2] No such file or directory: ", path.toText.quoted]
  | zeroInPath => "embedded null byte"
  | isDirectory path => Text.concat ["[Errno 21] Is a directory: ", path.toText.quoted]
  | notDirectory path => Text.concat ["[Errno 20] Not a directory: ", path.toText.quoted]
  | alreadyExists path => Text.concat ["[Errno 17] File exists: ", path.toText.quoted]
  | unmatchedTag name =>
    Text.concat ["closing tag '[/", name, "]' doesn't match any open tag"]
  | unreadableHandler parameter => Text.concat ["error parsing ", parameter.quoted]
  | unreadableNumber digits =>
    Text.concat ["invalid literal for int() with base 10: ", digits.quoted]
  | unencodable text offset => unencodableMessage text offset

/-- Why a check does not pass: the modules violate a rule, or the check could not be made. -/
inductive Failure where
  | violation (v : Violation)
  | fault (f : Fault)
deriving DecidableEq

/-- What a report tells about a failure; a fault is not told. -/
def Failure.told : Failure → Except Fault Finding
  | violation v => .ok v.finding
  | fault f => .error f

end BundleGraph
