import BundleGraph.Schema.Decode

/-!
# Module manifests

What a module of a bundle declares about itself. The dependencies keep their order, and the same
one may be declared more than once.
-/
namespace BundleGraph

open Json (Value)
open Schema (Decoded Field)

abbrev Name : Type := Text

structure Manifest where
  name : Name
  isBase : Bool := false
  onDemand : Bool := false
  splitId : Option Text := none
  usesSplits : List Name := []
deriving DecidableEq

namespace Manifest

/-- The name of the base module unless a setting says otherwise. -/
def defaultBase : Name := "base"

/-- Whether the module is delivered together with the base module. -/
def isInstallTime (m : Manifest) : Bool := !m.onDemand

/-- The last manifest of a name. -/
def last? (modules : List Manifest) (name : Name) : Option Manifest :=
  modules.reverse.find? fun x => x.name = name

def title : Text := "BundleModule"

def nameField : Field := ⟨"name", []⟩

def baseField : Field := ⟨"base", ["is_base"]⟩

def onDemandField : Field := ⟨"onDemand", ["on_demand"]⟩

def splitIdField : Field := ⟨"splitId", ["split_id"]⟩

def usesSplitsField : Field := ⟨"usesSplits", ["uses_splits"]⟩

/-- The manifest that a JSON value describes; unknown members are ignored. -/
def decode : Value → Decoded Manifest :=
  Schema.openRecord title fun members =>
    ((nameField.required Schema.nonemptyText members).both <|
      (baseField.optional false Schema.flag members).both <|
      (onDemandField.optional false Schema.flag members).both <|
      (splitIdField.optional none (Schema.nullable Schema.text) members).both <|
      usesSplitsField.optional [] (Schema.arrayOf .notTuple Schema.text) members).map
    fun (name, isBase, onDemand, splitId, usesSplits) =>
      { name, isBase, onDemand, splitId, usesSplits }

/-- The defect of an attempt to give the field `name` another value: manifests do not change. -/
def assignmentDefect (name : Text) (v : Value) : Schema.Defect :=
  ⟨[.key name], .frozen, v⟩

end Manifest

end BundleGraph
