import BundleGraph.Assoc
import BundleGraph.Console.Colour
import BundleGraph.Text.Blank

/-!
# Styles

A style is described in words: attributes by name or by letter, colours, and a link. Descriptions
of one style have one normal form, whatever their order, spelling and repetitions: the attributes
in a fixed order, then the colour, the background and the link. Words without meaning are taken as
a name, in lower case.
-/
namespace BundleGraph.Console

inductive Attribute where
  | bold
  | dim
  | italic
  | underline
  | blink
  | rapidBlink
  | reverse
  | conceal
  | strike
  | doubleUnderline
  | frame
  | encircle
  | overline
deriving DecidableEq

namespace Attribute

def all : List Attribute :=
  [bold, dim, italic, underline, blink, rapidBlink, reverse, conceal, strike, doubleUnderline,
    frame, encircle, overline]

def name : Attribute → Text
  | bold => "bold"
  | dim => "dim"
  | italic => "italic"
  | underline => "underline"
  | blink => "blink"
  | rapidBlink => "blink2"
  | reverse => "reverse"
  | conceal => "conceal"
  | strike => "strike"
  | doubleUnderline => "underline2"
  | frame => "frame"
  | encircle => "encircle"
  | overline => "overline"

def short? : Attribute → Option Text
  | bold => some "b"
  | dim => some "d"
  | italic => some "i"
  | underline => some "u"
  | reverse => some "r"
  | conceal => some "c"
  | strike => some "s"
  | doubleUnderline => some "uu"
  | overline => some "o"
  | _ => none

def ofWord? (w : Text) : Option Attribute :=
  all.find? fun a => a.name = w || a.short? = some w

end Attribute

/-- A style: the attributes that it turns on or off, its colours and its link. -/
structure Style where
  attributes : List (Attribute × Bool) := []
  colour : Option Text := none
  background : Option Text := none
  link : Option Text := none
deriving DecidableEq

namespace Style

def set (s : Style) (a : Attribute) (on : Bool) : Style :=
  { s with attributes := Assoc.insert a on s.attributes }

def paint (digits : Nat) (s : Style) (word : Text) : Except StyleDefect Style :=
  (Colour.ofWord digits word).map fun colour => { s with background := some colour }

def unset (s : Style) (word : Text) : Except StyleDefect Style :=
  match Attribute.ofWord? word with
  | some a => .ok (s.set a false)
  | none => .error .meaningless

def add (digits : Nat) (s : Style) (word : Text) : Except StyleDefect Style :=
  match Attribute.ofWord? word.lowerCase with
  | some a => .ok (s.set a true)
  | none => (Colour.ofWord digits word).map fun colour => { s with colour := some colour }

/-- What a word says about the next one. -/
def join? (digits : Nat) (w : Text) : Option (Style → Text → Except StyleDefect Style) :=
  if w = Text.ofString "on" then some (paint digits)
  else if w = Text.ofString "not" then some unset
  else if w = Text.ofString "link" then some fun s word => .ok { s with link := some word }
  else none

/-- The style with what words add to it; a later word overrules an earlier one. -/
def ofWords (digits : Nat) (s : Style) : List Text → Except StyleDefect Style
  | [] => .ok s
  | word :: rest =>
    match join? digits word.lowerCase, rest with
    | none, rest =>
      match s.add digits word with
      | .ok s' => ofWords digits s' rest
      | .error d => .error d
    | some _, [] => .error .meaningless
    | some join, next :: rest' =>
      match join s next with
      | .ok s' => ofWords digits s' rest'
      | .error d => .error d

def ofText (digits : Nat) (t : Text) : Except StyleDefect Style :=
  if t.trim = Text.ofString "none" then .ok {} else ofWords digits {} t.words

def attributeWords (s : Style) : List Text :=
  Attribute.all.flatMap fun a =>
    match s.attributes.lookup a with
    | none => []
    | some true => [a.name]
    | some false => ["not", a.name]

/-- The normal form of a style. -/
def text (s : Style) : Text :=
  let words := List.flatten [s.attributeWords, s.colour.toList,
    (s.background.map fun colour => [Text.ofString "on", colour]).getD [],
    (s.link.map fun link => [Text.ofString "link", link]).getD []]
  if words.isEmpty then "none" else Text.joinWith " " words

def normalForm (digits : Nat) (t : Text) : Except Fault Text :=
  match ofText digits t with
  | .ok s => .ok s.text
  | .error d =>
    match d.fault? with
    | some f => .error f
    | none => .ok t.trim.lowerCase

end Style

end BundleGraph.Console
