import BundleGraph.Bundle.Manifest
import BundleGraph.Text.Blank

/-!
# Settings

The settings of a run: the name under which the base module is expected, the format of the report
and how much is logged. Every section of a settings file may be left out.
-/
namespace BundleGraph

open Json (Value)
open Schema (Decoded Field)

inductive Format where
  | table
  | json
  | markdown
deriving DecidableEq

def Format.name : Format → Text
  | table => "table"
  | json => "json"
  | markdown => "markdown"

def Format.all : List Format := [.table, .json, .markdown]

/-- The levels of logging, from the fewest records to the most. -/
inductive Level where
  | error
  | warn
  | info
  | debug
deriving DecidableEq

def Level.name : Level → Text
  | error => "error"
  | warn => "warn"
  | info => "info"
  | debug => "debug"

def Level.all : List Level := [.error, .warn, .info, .debug]

/-- The weight of a level. A record is logged if it weighs at least as much as the threshold. -/
def Level.weight : Level → Nat
  | error => 40
  | warn => 30
  | info => 20
  | debug => 10

structure Settings where
  expectedBase : Name := Manifest.defaultBase
  format : Format := .table
  level : Level := .warn
deriving DecidableEq

namespace Settings

def title : Text := "BundleDepsConfig"

def expectedBaseField : Field := ⟨"baseModuleName", ["base_module_name"]⟩

def formatField : Field := ⟨"format", []⟩

def levelField : Field := ⟨"level", []⟩

def validationField : Field := ⟨"validation", []⟩

def outputField : Field := ⟨"output", []⟩

def loggingField : Field := ⟨"logging", []⟩

/-- A name that is not blank. -/
def decodeName : Value → Decoded Name
  | .string t =>
    if t.isBlank then Schema.defect (.rejected "base_module_name must not be empty") (.string t)
    else .ok t
  | v => Schema.defect .notText v

def validationTitle : Text := "ValidationConfig"

def decodeValidation : Value → Decoded Name :=
  Schema.openRecord validationTitle (expectedBaseField.optional Manifest.defaultBase decodeName)

def decodeOutput : Value → Decoded Format :=
  Schema.openRecord "OutputConfig"
    (formatField.optional .table (Schema.choice (Format.all.map fun f => (f.name, f))))

def decodeLogging : Value → Decoded Level :=
  Schema.openRecord "LoggingConfig"
    (levelField.optional .warn (Schema.choice (Level.all.map fun l => (l.name, l))))

def decode : Value → Decoded Settings :=
  Schema.closedRecord title [validationField, outputField, loggingField] fun members =>
    ((validationField.optional Manifest.defaultBase decodeValidation members).both <|
      (outputField.optional .table decodeOutput members).both <|
      loggingField.optional .warn decodeLogging members).map
    fun (expectedBase, format, level) => { expectedBase, format, level }

end Settings

end BundleGraph
