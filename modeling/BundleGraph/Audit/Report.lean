import BundleGraph.Audit.Rule
import BundleGraph.Json.Value

/-!
# Reports

The outcome of an audit: a status, the issues found and some counters. A failed status stays
failed. Counters keep the order in which they were first counted.
-/
namespace BundleGraph

open Json (Value)

inductive Status where
  | pass
  | fail
deriving DecidableEq

namespace Status

def name : Status → Text
  | pass => "pass"
  | fail => "fail"

def title : Status → Text
  | pass => "PASS"
  | fail => "FAIL"

end Status

structure Issue where
  rule : Text
  severity : Status
  message : Text
  kind : Option Text := none
  modules : List Text := []
deriving DecidableEq

namespace Issue

/-- An issue on one line. An empty kind is left out. -/
def shown (i : Issue) : Text :=
  let kind : Text := match i.kind with
    | some k => if k.isEmpty then [] else Text.concat [" (", k, ")"]
    | none => []
  Text.concat ["[", i.severity.title, "] ", i.rule, kind, ": ", i.message]

def toJson (i : Issue) : Value :=
  .ofMembers [("rule", .string i.rule), ("severity", .string i.severity.name),
    ("kind", .ofText? i.kind), ("message", .string i.message), ("modules", .ofTexts i.modules)]

def found (rule : Text) (finding : Finding) : Issue where
  rule := rule
  severity := .fail
  message := finding.message
  kind := some finding.kind.name
  modules := finding.modules

def ofViolation (r : Rule) (v : Violation) : Issue := found r.name v.finding

end Issue

structure Report where
  status : Status
  issues : List Issue := []
  counters : List (Text × Int) := []
deriving DecidableEq

namespace Report

/-- One for a failed audit. -/
def exitCode (r : Report) : Nat := if r.status = .fail then 1 else 0

/-- The report with one more issue, which may make it fail. -/
def addIssue (r : Report) (i : Issue) : Report :=
  { r with
    status := if i.severity = .fail then .fail else r.status
    issues := r.issues ++ [i] }

def count (r : Report) (name : Text) (by' : Int := 1) : Report :=
  { r with counters := Assoc.insert name ((r.counters.lookup name).getD 0 + by') r.counters }

def toJson (r : Report) : Value :=
  .ofMembers [("status", .string r.status.name), ("exit_code", .int r.exitCode),
    ("counters", .object (r.counters.map fun p => (p.1, .int p.2))),
    ("issues", .array (r.issues.map Issue.toJson))]

def opening (modules : List Manifest) : Report :=
  ((Report.mk .pass [] []).count "modules_checked" modules.length
    |>.count "dependencies_checked" (modules.flatMap Manifest.usesSplits).length
    |>.count "on_demand_modules" (modules.filter Manifest.onDemand).length)

end Report

namespace RuleKind

variable {ρ σ ε φ : Type} (k : RuleKind ρ σ ε φ)

/-- The rules run from a state, with what they find put into a report. A failure that is told is the
last issue; a fault is not reported and ends the run. -/
def record (report : Report) (s : σ) : List ρ → Except φ Report
  | [] => .ok report
  | r :: rest =>
    match k.check s r with
    | .ok s' => record report s' rest
    | .error failure =>
      match k.told failure with
      | .ok finding => .ok (report.addIssue (Issue.found (k.name r) finding))
      | .error f => .error f

def audit (rules : List ρ) (expected : Name) (modules : List Manifest) : Except φ Report :=
  k.record (Report.opening modules) (k.start modules expected) rules

end RuleKind

/-- The report about the modules by the rules. A violation ends the run and becomes the only
issue. -/
def audit (rules : List Rule) (expected : Name) (modules : List Manifest) : Except Fault Report :=
  Rule.kind.audit rules expected modules

end BundleGraph
