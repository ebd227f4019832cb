import BundleGraph.Files.Tree
import BundleGraph.Json.Reader
import BundleGraph.Schema.Defect
import BundleGraph.Text.Utf8

/-!
# Documents

Files that hold one JSON value each: UTF-8 text in which every line break counts as a line feed.
What is wrong with a document is told with its kind and its path. The limits of the JSON reader are
faults and not defects of the document.
-/
namespace BundleGraph

inductive DocumentKind where
  | bundle
  | settings
deriving DecidableEq

inductive DocumentDefect where
  | missing
  | isDirectory
  | forbidden
  | notText (defect : Utf8.Defect)
  | notJson (problem : Json.Problem) (document : Text) (offset : Nat)
  | notObject (kind : Text)
  | invalid (title : Text) (defects : List Schema.Defect)

structure DocumentError where
  kind : DocumentKind
  path : Path
  defect : DocumentDefect

inductive LoadFailure where
  | error (e : DocumentError)
  | fault (f : Fault)

namespace DocumentKind

def noun : DocumentKind → Text
  | bundle => "bundle descriptor"
  | settings => "config file"

def heading : DocumentKind → Text
  | bundle => "Bundle descriptor"
  | settings => "Config file"

def complaint : DocumentKind → Text
  | bundle => "Invalid bundle descriptor "
  | settings => "Failed to load config from "

end DocumentKind

namespace DocumentError

def summary (e : DocumentError) : Text :=
  let path := e.path.toText
  match e.defect with
  | .missing => e.kind.heading ++ Text.concat [" not found: ", path]
  | .isDirectory | .forbidden => Text.concat ["Cannot read ", e.kind.noun, " ", path]
  | .notText _ => e.kind.heading ++ Text.concat [" ", path, " is not valid UTF-8"]
  | .notJson _ _ _ => Text.concat ["Invalid JSON in ", e.kind.noun, " ", path]
  | .notObject _ => e.kind.complaint ++ path
  | .invalid _ _ => e.kind.complaint ++ path

/-- The details of an error. A document that is not there has none. -/
def details? (help? : Option Text) (e : DocumentError) : Option Text :=
  match e.defect with
  | .missing => none
  | .isDirectory => some (Fault.isDirectory e.path).message
  | .forbidden => some (Fault.forbidden e.path).message
  | .notText defect => some defect.message
  | .notJson problem document offset => some (problem.report document offset)
  | .notObject kind =>
    some ("bundledeps.config.BundleDepsConfig() argument after ** must be a mapping, not " ++ kind)
  | .invalid title defects => some (Schema.report help? title defects)

def message (help? : Option Text) (e : DocumentError) : Text :=
  match e.details? help? with
  | none => e.summary
  | some details => Text.concat [e.summary, ": ", details]

end DocumentError

namespace Document

/-- Every line break replaced by a line feed: a carriage return counts as one, also together with
the line feed behind it. -/
def unifyLineBreaks : Text → Text
  | [] => []
  | c :: rest =>
    if c = '\r' then
      match rest with
      | [] => ['\n']
      | d :: rest' =>
        if d = '\n' then CodePoint.scalar '\n' :: unifyLineBreaks rest'
        else CodePoint.scalar '\n' :: unifyLineBreaks (d :: rest')
    else c :: unifyLineBreaks rest

def read (limits : Json.Limits) (bytes : List UInt8) :
    Except (DocumentDefect ⊕ Fault) Json.Value :=
  match Utf8.decode bytes with
  | .error defect => .error (.inl (.notText defect))
  | .ok text =>
    let document := unifyLineBreaks text
    match Json.read limits document with
    | .ok v => .ok v
    | .error (.malformed problem offset) => .error (.inl (.notJson problem document offset))
    | .error (.integerTooLong digits) => .error (.inr (.integerTooLong limits.digits digits))
    | .error .tooDeep => .error (.inr .nestingTooDeep)

def load {α : Type} (limits : Json.Limits) (kind : DocumentKind) (path : Path)
    (bytes : List UInt8) (decode : Json.Value → Except DocumentDefect α) : Except LoadFailure α :=
  match read limits bytes with
  | .error (.inl defect) => .error (.error ⟨kind, path, defect⟩)
  | .error (.inr f) => .error (.fault f)
  | .ok v => (decode v).mapError fun defect => .error ⟨kind, path, defect⟩

end Document

end BundleGraph
