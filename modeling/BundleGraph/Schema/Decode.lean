import BundleGraph.Schema.Defect

/-!
# Decoding by a schema

Decoders of JSON values that collect every defect. A record lists its fields in order; a field may
have two spellings, of which the first one given counts and the other one is then an unknown key.
-/
namespace BundleGraph.Schema

open Json (Value)

/-- A decoded value, or the defects in the order of the schema. -/
abbrev Decoded (α : Type) : Type := Except (List Defect) α

variable {α β : Type}

def defect (kind : Kind) (v : Value) : Decoded α := .error [⟨[], kind, v⟩]

namespace Decoded

def both : Decoded α → Decoded β → Decoded (α × β)
  | .ok a, .ok b => .ok (a, b)
  | .ok _, .error e => .error e
  | .error e, .ok _ => .error e
  | .error e, .error e' => .error (e ++ e')

/-- What was decoded from the part under `step`. -/
def under (step : Step) : Decoded α → Decoded α
  | .ok a => .ok a
  | .error e => .error (e.map (Defect.under step))

end Decoded

def text : Value → Decoded Text
  | .string t => .ok t
  | v => defect .notText v

/-- A string with at least one character. It must have a Unicode form. -/
def nonemptyText : Value → Decoded Text
  | .string t =>
    if t.hasSurrogate then defect .notUnicode (.string t)
    else if t.isEmpty then defect .emptyText (.string t)
    else .ok t
  | v => defect .notText v

/-- The words for false and for true, in lower case. -/
def flagWords : List (Text × Bool) :=
  [("0", false), ("off", false), ("f", false), ("false", false), ("n", false), ("no", false),
    ("1", true), ("on", true), ("t", true), ("true", true), ("y", true), ("yes", true)]

/-- A flag given as a number: zero or one. A number beyond 64 bits is no candidate at all. -/
def flagOfInt (v : Value) (n : Int) : Decoded Bool :=
  if n = 0 then .ok false
  else if n = 1 then .ok true
  else if -0x8000000000000000 ≤ n ∧ n < 0x8000000000000000 then defect .unreadableFlag v
  else defect .notFlag v

/-- A flag: a boolean, zero or one, or one of the words in any case. -/
def flag : Value → Decoded Bool
  | .bool b => .ok b
  | .string t =>
    if t.hasSurrogate then defect .notUnicode (.string t)
    else match flagWords.lookup (t.map CodePoint.toLower) with
      | some b => .ok b
      | none => defect .unreadableFlag (.string t)
  | .int n => flagOfInt (.int n) n
  | .float x => match x.toInt? with
    | some n => flagOfInt (.float x) n
    | none => defect .notFlag (.float x)
  | v => defect .notFlag v

/-- Null for none, or what `decode` takes. -/
def nullable (decode : Value → Decoded α) : Value → Decoded (Option α)
  | .null => .ok none
  | v => (decode v).map some

def itemsFrom (decode : Value → Decoded α) : (i : Nat) → List Value → Decoded (List α)
  | _, [] => .ok []
  | i, v :: rest =>
    ((Decoded.under (.index i) (decode v)).both (itemsFrom decode (i + 1) rest)).map
      fun p => p.1 :: p.2

/-- An array; `otherwise` is the defect of any other value. -/
def arrayOf (otherwise : Kind) (decode : Value → Decoded α) : Value → Decoded (List α)
  | .array items => itemsFrom decode 0 items
  | v => defect otherwise v

def choice (choices : List (Text × α)) : Value → Decoded α
  | .string t =>
    if t.hasSurrogate then defect .notUnicode (.string t)
    else match choices.lookup t with
      | some a => .ok a
      | none => defect (.notAmong (choices.map Prod.fst)) (.string t)
  | v => defect (.notAmong (choices.map Prod.fst)) v

abbrev Members : Type := List (Text × Value)

/-- A field with its spellings, the preferred one first. -/
structure Field where
  name : Text
  others : List Text

namespace Field

def find? (f : Field) (members : Members) : Option (Text × Value) :=
  (f.name :: f.others).findSome? fun key => (members.lookup key).map (key, ·)

def optional (f : Field) (default : α) (decode : Value → Decoded α) (members : Members) :
    Decoded α :=
  match f.find? members with
  | some (key, v) => Decoded.under (.key key) (decode v)
  | none => .ok default

def required (f : Field) (decode : Value → Decoded α) (members : Members) : Decoded α :=
  match f.find? members with
  | some (key, v) => Decoded.under (.key key) (decode v)
  | none => .error [⟨[.key f.name], .missing, .object members⟩]

end Field

def unusedMembers (fields : List Field) (members : Members) : Members :=
  let used := fields.filterMap fun f => (f.find? members).map Prod.fst
  members.filter fun m => m.1 ∉ used

/-- No member but those of the fields. -/
def noOthers (fields : List Field) (members : Members) : Decoded Unit :=
  match unusedMembers fields members with
  | [] => .ok ()
  | others => .error (others.map fun m => ⟨[.key m.1], .unknownKey, m.2⟩)

def openRecord (title : Text) (decode : Members → Decoded α) : Value → Decoded α
  | .object members => decode members
  | v => defect (.notRecord title) v

/-- An object without members beyond the fields. A key without a Unicode form is reported alone. -/
def closedRecord (title : Text) (fields : List Field) (decode : Members → Decoded α) :
    Value → Decoded α
  | .object members =>
    match members.find? fun m => Text.hasSurrogate m.1 with
    | some m => defect .notUnicode (.string m.1)
    | none => ((decode members).both (noOthers fields members)).map Prod.fst
  | v => defect (.notRecord title) v

end BundleGraph.Schema
