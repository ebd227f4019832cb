import BundleGraph.Assoc
import BundleGraph.Number.Shortest
import BundleGraph.Text.Quoted

/-!
# JSON values

Integers are exact, other numbers are binary64, and the members of an object keep the order in
which their keys first appear. `Value.shown` is the one-line form in which a report shows a value.
-/
namespace BundleGraph.Json

/-- A JSON value. The keys of an object are distinct when the value was read. -/
inductive Value where
  | null
  | bool (value : Bool)
  | int (value : Int)
  | float (value : Binary64)
  | string (text : Text)
  | array (items : List Value)
  | object (members : List (Text × Value))

namespace Value

def kindName : Value → Text
  | null => "NoneType"
  | bool _ => "bool"
  | int _ => "int"
  | float _ => "float"
  | string _ => "str"
  | array _ => "list"
  | object _ => "dict"

def ofMembers (members : List (String × Value)) : Value :=
  object (members.map fun p => (Text.ofString p.1, p.2))

def ofTexts (texts : List Text) : Value := array (texts.map string)

def ofText? : Option Text → Value
  | some t => string t
  | none => null

mutual

/-- A value on one line: strings are quoted and items are set apart by a comma and a space. -/
def shown : Value → Text
  | null => "None"
  | bool b => if b then "True" else "False"
  | int n => Text.ofInt n
  | float x => x.toText
  | string t => t.quoted
  | array items => Text.concat ["[", Text.joinWith ", " (shownItems items), "]"]
  | object members => Text.concat ["\x7b", Text.joinWith ", " (shownMembers members), "\x7d"]

def shownItems : List Value → List Text
  | [] => []
  | v :: rest => shown v :: shownItems rest

def shownMembers : List (Text × Value) → List Text
  | [] => []
  | (k, v) :: rest => Text.concat [k.quoted, ": ", shown v] :: shownMembers rest

end

end Value

end BundleGraph.Json
