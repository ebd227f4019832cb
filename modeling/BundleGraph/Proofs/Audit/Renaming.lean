import BundleGraph.Proofs.Audit.Report
import BundleGraph.Proofs.Dependency.Renaming

/-!
# Modules under other names

No name of a module is special. Under an injective renaming of all names each inspection finds the
renamed violation, each rule leaves the renamed context, and so a run of any rules comes to the
renamed outcome. The name that is expected of the base module is told where there is none and
decides nothing; it need not be renamed.
-/
namespace BundleGraph

variable (f : Name ↪ Name) (expected' : Name)

def Violation.rename : Violation → Violation
  | missingBase _ => missingBase expected'
  | onDemandBase x => onDemandBase (f x)
  | baseSplitId x id => baseSplitId (f x) (f id)
  | foreignSplitId x id => foreignSplitId (f x) (f id)
  | duplicateModule x => duplicateModule (f x)
  | explicitBase x base => explicitBase (f x) (f base)
  | selfDependency x => selfDependency (f x)
  | repeatedDependency x d => repeatedDependency (f x) (f d)
  | unknownModule x => unknownModule (f x)
  | cycle path => cycle (path.map f)
  | onDemandDependency x d => onDemandDependency (f x) (f d)

@[simp] theorem Violation.kind_rename (v : Violation) : (v.rename f expected').kind = v.kind := by
  cases v <;> rfl

@[simp] theorem Violation.modules_rename (v : Violation) :
    (v.rename f expected').modules = v.modules.map f := by
  cases v <;> rfl

def Fault.rename : Fault → Fault
  | noSuchModule x => noSuchModule (f x)
  | other => other

def Failure.rename : Failure → Failure
  | violation v => violation (v.rename f expected')
  | fault e => fault (e.rename f)

namespace DependencyMap

theorem addModule_rename (m : DependencyMap) (x : Manifest) :
    (m.rename f).addModule (x.rename f) =
      ((m.addModule x).map (rename f)).mapError (Violation.rename f expected') := by
  have hkey : (x.rename f).name ∈ (m.rename f).keys ↔ x.name ∈ m.keys := by
    simp [Manifest.rename, List.mem_map_of_injective f.injective]
  have hbase : (m.rename f).base ∈ (x.rename f).usesSplits ↔ m.base ∈ x.usesSplits := by
    simp [Manifest.rename, List.mem_map_of_injective f.injective]
  simp only [addModule, hkey, hbase]
  split_ifs
  · rfl
  · rfl
  · simp [Except.map, Except.mapError, push, rename, Manifest.rename]

theorem addModules_rename (m : DependencyMap) (modules : List Manifest) :
    (m.rename f).addModules (modules.map (Manifest.rename f)) =
      ((m.addModules modules).map (rename f)).mapError (Violation.rename f expected') := by
  induction modules generalizing m with
  | nil => rfl
  | cons x rest ih =>
    rw [List.map_cons, addModules, addModules, addModule_rename f expected']
    cases m.addModule x with
    | error v => rfl
    | ok m' => exact ih m'

theorem ofModules_rename (modules : List Manifest) :
    ofModules (modules.map (Manifest.rename f)) =
      ((ofModules modules).map (rename f)).mapError (Failure.rename f expected') := by
  rw [ofModules, ofModules, baseName?_rename]
  cases baseName? modules with
  | none => rfl
  | some base =>
    have h := addModules_rename f expected' (empty base) modules
    simp only [Option.map_some]
    rw [show empty (f base) = (empty base).rename f from rfl, h]
    cases (empty base).addModules modules <;> rfl

end DependencyMap

theorem Manifest.last?_rename (modules : List Manifest) (x : Name) :
    last? (modules.map (rename f)) (f x) = (last? modules x).map (rename f) := by
  rw [last?, last?, ← List.map_reverse, List.find?_map]
  simp [rename]

namespace Inspection

variable (modules : List Manifest) (m : DependencyMap)

theorem baseViolation?_rename (expected : Name) :
    baseViolation? expected' (modules.map (Manifest.rename f)) =
      (baseViolation? expected modules).map (Violation.rename f expected') := by
  have hfilter : (modules.map (Manifest.rename f)).filter Manifest.isBase =
      (modules.filter Manifest.isBase).map (Manifest.rename f) := by
    rw [List.filter_map]
    rfl
  rw [baseViolation?, baseViolation?, hfilter]
  cases modules.filter Manifest.isBase with
  | nil => rfl
  | cons b bases =>
    change Option.map _ (((b :: bases).map (Manifest.rename f)).find? _) = _
    rw [List.find?_map, Option.map_map, Option.map_map]
    rfl

theorem splitIdViolation?_rename :
    splitIdViolation? (modules.map (Manifest.rename f)) =
      (splitIdViolation? modules).map (Violation.rename f expected') := by
  rw [splitIdViolation?, splitIdViolation?, List.findSome?_map, List.map_findSome?]
  congr 1
  funext x
  obtain ⟨name, isBase, onDemand, splitId, usesSplits⟩ := x
  cases splitId with
  | none => rfl
  | some id =>
    simp only [Function.comp, Manifest.rename, Option.map_some, Option.bind_some,
      f.injective.eq_iff]
    split_ifs <;> rfl

theorem selfViolation?_rename :
    selfViolation? (m.rename f) = (selfViolation? m).map (Violation.rename f expected') := by
  rw [selfViolation?, selfViolation?, DependencyMap.keys_rename, List.find?_map, Option.map_map,
    Option.map_map]
  simp [Function.comp_def, DependencyMap.hasEdge_rename, f.injective.eq_iff, Violation.rename]

theorem firstRepeat?_rename (seen l : List Name) :
    firstRepeat? (seen.map f) (l.map f) = (firstRepeat? seen l).map f := by
  induction l generalizing seen with
  | nil => rfl
  | cons x l ih =>
    simp only [firstRepeat?, List.map_cons, List.mem_map_of_injective f.injective]
    split_ifs
    · rfl
    · exact ih (x :: seen)

theorem repeatViolation?_rename :
    repeatViolation? (m.rename f) = (repeatViolation? m).map (Violation.rename f expected') := by
  rw [repeatViolation?, repeatViolation?, DependencyMap.rename, List.findSome?_map,
    List.map_findSome?]
  congr 1
  funext row
  have h := firstRepeat?_rename f [] row.2
  simp only [List.map_nil] at h
  simp only [Function.comp, Prod.map, h]
  cases firstRepeat? [] row.2 <;> rfl

theorem unknownViolation?_rename :
    unknownViolation? (m.rename f) =
      (unknownViolation? m).map (Violation.rename f expected') := by
  rw [unknownViolation?, unknownViolation?, DependencyMap.targets_rename, List.find?_map,
    Option.map_map, Option.map_map]
  simp only [Function.comp_def, DependencyMap.keys_rename, List.mem_map_of_injective f.injective]
  rfl

theorem cycleViolation?_rename :
    cycleViolation? (m.rename f) = (cycleViolation? m).map (Violation.rename f expected') := by
  rw [cycleViolation?, cycleViolation?, DependencyMap.searchCycle_rename]
  cases m.searchCycle <;> rfl

theorem deliveryFailure?_rename (edge : Name × Name) :
    deliveryFailure? (modules.map (Manifest.rename f)) (edge.map f f) =
      (deliveryFailure? modules edge).map (Failure.rename f expected') := by
  obtain ⟨x, d⟩ := edge
  simp only [deliveryFailure?, Prod.map, Manifest.last?_rename]
  cases Manifest.last? modules x with
  | none => rfl
  | some manifest =>
    have hx : (manifest.rename f).onDemand = manifest.onDemand := rfl
    simp only [Option.map_some, hx]
    split_ifs
    · rfl
    · cases Manifest.last? modules d with
      | none => rfl
      | some target =>
        have hd : (target.rename f).onDemand = target.onDemand := rfl
        simp only [Option.map_some, hd]
        split_ifs <;> rfl

theorem deliveryFailures?_rename :
    deliveryFailures? (modules.map (Manifest.rename f)) (m.rename f) =
      (deliveryFailures? modules m).map (Failure.rename f expected') := by
  rw [deliveryFailures?, deliveryFailures?, DependencyMap.edges_rename, List.findSome?_map,
    List.map_findSome?]
  congr 1
  funext edge
  exact deliveryFailure?_rename f expected' modules edge

end Inspection

namespace Context

def rename (c : Context) : Context :=
  ⟨c.modules.map (Manifest.rename f), expected', c.map?.map (DependencyMap.rename f)⟩

theorem pass_rename (c : Context) (found : Option Failure) :
    (c.rename f expected').pass (found.map (Failure.rename f expected')) =
      ((c.pass found).map (rename f expected')).mapError (Failure.rename f expected') := by
  cases found <;> rfl

theorem pass_violation_rename (c : Context) (violation? : Option Violation) :
    (c.rename f expected').pass ((violation?.map (Violation.rename f expected')).map .violation) =
      ((c.pass (violation?.map .violation)).map (rename f expected')).mapError
        (Failure.rename f expected') := by
  cases violation? <;> rfl

/-- A rule that reads the map does under other names what it does under the given ones, if what it
looks for does. -/
theorem map_bind_pass_rename (c : Context) {found found' : DependencyMap → Option Failure}
    (h : ∀ m, found' (m.rename f) = (found m).map (Failure.rename f expected')) :
    ((c.rename f expected').map.bind fun m => (c.rename f expected').pass (found' m)) =
      ((c.map.bind fun m => c.pass (found m)).map (rename f expected')).mapError
        (Failure.rename f expected') := by
  cases hmap : c.map? with
  | none => simp [map, rename, hmap, Except.bind, Except.map, Except.mapError, Failure.rename,
      Fault.rename]
  | some m =>
    have hm : (c.rename f expected').map = .ok (m.rename f) := by simp [map, rename, hmap]
    rw [hm]
    simp only [map, hmap, Except.bind, h, pass_rename]

theorem passMap_rename (c : Context) {violation? : DependencyMap → Option Violation}
    (h : ∀ m, violation? (m.rename f) = (violation? m).map (Violation.rename f expected')) :
    (c.rename f expected').passMap violation? =
      ((c.passMap violation?).map (rename f expected')).mapError (Failure.rename f expected') := by
  apply map_bind_pass_rename
  intro m
  rw [h, Option.map_map, Option.map_map]
  rfl

end Context

namespace Rule

theorem check_rename (c : Context) (r : Rule) :
    r.check (c.rename f expected') =
      ((r.check c).map (Context.rename f expected')).mapError (Failure.rename f expected') := by
  cases r with
  | basePresence =>
    have h := Inspection.baseViolation?_rename f expected' c.modules c.expectedBase
    rw [check, check, ← Context.pass_violation_rename, ← h]
    rfl
  | splitIds =>
    have h := Inspection.splitIdViolation?_rename f expected' c.modules
    rw [check, check, ← Context.pass_violation_rename, ← h]
    rfl
  | dependencyMap =>
    have h := DependencyMap.ofModules_rename f expected' c.modules
    rw [check, check, Context.rename, h]
    cases DependencyMap.ofModules c.modules <;> rfl
  | noSelfDependencies =>
    exact Context.passMap_rename f expected' c (Inspection.selfViolation?_rename f expected')
  | noRepeats =>
    exact Context.passMap_rename f expected' c (Inspection.repeatViolation?_rename f expected')
  | knownModules =>
    exact Context.passMap_rename f expected' c (Inspection.unknownViolation?_rename f expected')
  | noCycles =>
    exact Context.passMap_rename f expected' c (Inspection.cycleViolation?_rename f expected')
  | deliveryOrder =>
    exact Context.map_bind_pass_rename f expected' c fun m =>
      Inspection.deliveryFailures?_rename f expected' c.modules m

theorem outcome_rename (c : Context) (rules : List Rule) :
    outcome (c.rename f expected') rules =
      (outcome c rules).mapError (Failure.rename f expected') := by
  induction rules generalizing c with
  | nil => rfl
  | cons r rest ih =>
    have hcheck := check_rename f expected' c r
    cases hr : r.check c with
    | ok c' =>
      rw [hr] at hcheck
      rw [outcome_cons_of_ok hr, outcome_cons_of_ok hcheck, ih]
    | error failure =>
      rw [hr] at hcheck
      rw [outcome_cons_of_error hr, outcome_cons_of_error hcheck]
      rfl

end Rule

theorem validate_rename (modules : List Manifest) (expected : Name) (rules : List Rule) :
    validate (modules.map (Manifest.rename f)) expected' rules =
      (validate modules expected rules).mapError (Failure.rename f expected') := by
  rw [Rule.validate_eq_outcome, Rule.validate_eq_outcome, ← Rule.outcome_rename]
  rfl

theorem tallies_rename (modules : List Manifest) :
    Report.tallies (modules.map (Manifest.rename f)) = Report.tallies modules := by
  simp [Report.tallies, Function.comp_def, Manifest.rename, List.countP_map]

/-- The same issue about modules under other names. The wording may differ. -/
structure Issue.Renamed (i i' : Issue) : Prop where
  rule : i'.rule = i.rule
  severity : i'.severity = i.severity
  kind : i'.kind = i.kind
  modules : i'.modules = i.modules.map f

theorem Issue.renamed_ofViolation (r : Rule) (v : Violation) :
    Renamed f (ofViolation r v) (ofViolation r (v.rename f expected')) := by
  refine ⟨rfl, rfl, ?_, ?_⟩
  · exact congrArg (some ·.name) (v.kind_rename f expected')
  · exact v.modules_rename f expected'

/-- Bundles that differ by an injective renaming are audited with the same result, but for the names
that are told: these are renamed, along a cycle one by one. The two runs may expect base modules of
different names. -/
theorem audit_of_renamed (expected : Name) (modules : List Manifest) :
    ∃ report report', audit Rule.defaults expected modules = .ok report ∧
      audit Rule.defaults expected' (modules.map (Manifest.rename f)) = .ok report' ∧
      report'.status = report.status ∧ report'.exitCode = report.exitCode ∧
      report'.counters = report.counters ∧
      List.Forall₂ (Issue.Renamed f) report.issues report'.issues := by
  have hrename := validate_rename f expected' modules expected Rule.defaults
  rcases validate_cases modules expected with hok | ⟨v, hv⟩
  · rw [hok] at hrename
    exact ⟨_, _, audit_of_ok hok, audit_of_ok hrename, rfl, rfl, by simp [tallies_rename], .nil⟩
  · rw [hv] at hrename
    have haudit := audit_eq_of_violation hrename
    rw [Violation.kind_rename] at haudit
    exact ⟨_, _, audit_eq_of_violation hv, haudit, rfl, rfl, by simp [tallies_rename],
      .cons (Issue.renamed_ofViolation f expected' _ v) .nil⟩

/-- The base module has another name than expected, and an ordinary module has the expected one. -/
example : validate [⟨"core", true, false, none, []⟩, ⟨"base", false, false, none, ["a"]⟩,
    ⟨"a", false, false, none, ["base"]⟩] "base" = .error (.violation (.cycle ["base", "a"])) := by
  cbv

end BundleGraph
