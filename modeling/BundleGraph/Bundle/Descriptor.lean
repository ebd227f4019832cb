import BundleGraph.Bundle.Manifest

/-!
# Bundle descriptors

The JSON form of a bundle: its name and an entry for every module. An entry need not say whether
its module is the base module; then the module of the expected name is.
-/
namespace BundleGraph

open Json (Value)
open Schema (Decoded Field)

namespace Descriptor

structure Entry where
  name : Name
  base : Option Bool := none
  onDemand : Bool := false
  splitId : Option Text := none
  usesSplits : List Name := []
deriving DecidableEq

namespace Entry

def title : Text := "ModuleEntry"

def baseField : Field := ⟨"base", []⟩

def fields : List Field :=
  [Manifest.nameField, baseField, Manifest.onDemandField, Manifest.splitIdField,
    Manifest.usesSplitsField]

def decode : Value → Decoded Entry :=
  Schema.closedRecord title fields fun members =>
    ((Manifest.nameField.required Schema.nonemptyText members).both <|
      (baseField.optional none (Schema.nullable Schema.flag) members).both <|
      (Manifest.onDemandField.optional false Schema.flag members).both <|
      (Manifest.splitIdField.optional none (Schema.nullable Schema.text) members).both <|
      Manifest.usesSplitsField.optional [] (Schema.arrayOf .notList Schema.text) members).map
    fun (name, base, onDemand, splitId, usesSplits) =>
      { name, base, onDemand, splitId, usesSplits }

/-- The manifest of the module, in a bundle whose base module is expected under `expected`. -/
def manifest (expected : Name) (e : Entry) : Manifest where
  name := e.name
  isBase := e.base.getD (e.name = expected)
  onDemand := e.onDemand
  splitId := e.splitId
  usesSplits := e.usesSplits

end Entry

end Descriptor

structure Descriptor where
  bundle : Option Text := none
  entries : List Descriptor.Entry := []
deriving DecidableEq

namespace Descriptor

def title : Text := "BundleDescriptor"

def bundleField : Field := ⟨"bundle", []⟩

def modulesField : Field := ⟨"modules", []⟩

def decode : Value → Decoded Descriptor :=
  Schema.closedRecord title [bundleField, modulesField] fun members =>
    ((bundleField.optional none (Schema.nullable Schema.text) members).both <|
      modulesField.optional [] (Schema.arrayOf .notList Entry.decode) members).map
    fun (bundle, entries) => { bundle, entries }

def manifests (expected : Name) (d : Descriptor) : List Manifest :=
  d.entries.map (Entry.manifest expected)

end Descriptor

end BundleGraph
