import BundleGraph.Audit.Report
import BundleGraph.Proofs.Audit.Verdict

/-!
# Reports about verdicts

The rules that are run by default accept the modules or name a violation; no fault comes out of
them. The report follows: it is the opening one, or that with the violation as its only issue, put
down to the rule for its kind.
-/
namespace BundleGraph

variable {modules : List Manifest} {expected : Name} {v : Violation}

namespace Rule

def ofKind : Violation.Kind → Rule
  | .missingRootModule => basePresence
  | .onDemandRootModule => basePresence
  | .identifierMismatch => splitIds
  | .duplicateModuleEntry => dependencyMap
  | .explicitRootDependency => dependencyMap
  | .selfDependency => noSelfDependencies
  | .duplicateDependencyDeclaration => noRepeats
  | .unknownModuleReference => knownModules
  | .cyclicDependency => noCycles
  | .invalidDeliveryOrdering => deliveryOrder

theorem ofKind_of_baseViolation? (h : Inspection.baseViolation? expected modules = some v) :
    ofKind v.kind = basePresence := by
  by_cases hbase : ∃ x ∈ modules, x.isBase
  · obtain ⟨x, -, rfl⟩ := (Inspection.baseViolation?_of_base hbase).1 h
    rfl
  · push Not at hbase
    rw [Inspection.baseViolation?_of_no_base (by simpa using hbase), Option.some.injEq] at h
    rw [← h]
    rfl

theorem ofKind_of_ofModules (h : DependencyMap.ofModules modules = .error (.violation v)) :
    ofKind v.kind = dependencyMap := by
  cases hroot : baseName? modules with
  | none => simp [DependencyMap.ofModules, hroot] at h
  | some root =>
    rcases DependencyMap.ofModules_cases hroot with ⟨m, hm, -⟩ | ⟨before, x, hm, -⟩
    · simp [hm] at h
    · rw [hm, Except.error.injEq, Failure.violation.injEq] at h
      rw [← h, misplacement]
      split_ifs <;> rfl

theorem ofKind_of_deliveryFailures? {m : DependencyMap}
    (h : Inspection.deliveryFailures? modules m = some (.violation v)) :
    ofKind v.kind = deliveryOrder := by
  obtain ⟨e, -, he⟩ := List.exists_of_findSome?_eq_some h
  unfold Inspection.deliveryFailure? at he
  split at he
  · simp at he
  · split_ifs at he
    split at he
    · simp at he
    · split_ifs at he
      rw [Option.some.injEq, Failure.violation.injEq] at he
      rw [← he]
      rfl

/-- No other rule finds a violation than the one for its kind. -/
theorem ofKind_of_check {c : Context} {r : Rule} (h : r.check c = .error (.violation v)) :
    ofKind v.kind = r := by
  cases r with
  | basePresence => exact ofKind_of_baseViolation? (Context.pass_eq_violation_iff.1 h)
  | splitIds =>
    obtain ⟨x, id, -, -, rfl⟩ :=
      Inspection.splitIdViolation?_eq_some_iff.1 (Context.pass_eq_violation_iff.1 h)
    split_ifs <;> rfl
  | dependencyMap =>
    cases hm : DependencyMap.ofModules c.modules with
    | ok m => simp [check_dependencyMap_of_ok hm] at h
    | error failure =>
      rw [check_dependencyMap_of_error hm, Except.error.injEq] at h
      exact ofKind_of_ofModules (h ▸ hm)
  | noSelfDependencies =>
    obtain ⟨m, -, hm⟩ := Context.passMap_eq_violation_iff.1 h
    obtain ⟨x, -, rfl⟩ := Inspection.selfViolation?_eq_some_iff.1 hm
    rfl
  | noRepeats =>
    obtain ⟨m, -, hm⟩ := Context.passMap_eq_violation_iff.1 h
    obtain ⟨row, d, -, -, rfl⟩ := Inspection.repeatViolation?_eq_some_iff.1 hm
    rfl
  | knownModules =>
    obtain ⟨m, -, hm⟩ := Context.passMap_eq_violation_iff.1 h
    obtain ⟨d, -, rfl⟩ := Inspection.unknownViolation?_eq_some_iff.1 hm
    rfl
  | noCycles =>
    obtain ⟨m, -, hm⟩ := Context.passMap_eq_violation_iff.1 h
    obtain ⟨path, -, rfl⟩ := Inspection.cycleViolation?_eq_some_iff.1 hm
    rfl
  | deliveryOrder =>
    rcases Context.map_bind_pass_eq_error_iff.1 h with ⟨-, h⟩ | ⟨m, -, h⟩
    · simp at h
    · exact ofKind_of_deliveryFailures? h

end Rule

theorem Verdict.cases_on_outcome {clauses : List Clause} {o : Except Failure Unit}
    (h : Verdict clauses o) : o = .ok () ∨ ∃ v, o = .error (.violation v) := by
  induction h with
  | accepted => exact .inl rfl
  | @violated _ _ v _ => exact .inr ⟨v, rfl⟩
  | kept _ _ ih => exact ih

theorem validate_cases (modules : List Manifest) (expected : Name) :
    validate modules expected = .ok () ∨
      ∃ v, validate modules expected = .error (.violation v) := by
  rw [Rule.validate_eq_outcome]
  exact (outcome_defaults_iff.1 rfl).cases_on_outcome

theorem audit_of_ok (h : validate modules expected = .ok ()) :
    audit Rule.defaults expected modules = .ok (Report.opening modules) := by
  obtain ⟨s, hs⟩ := RuleKind.passes_of_raise h
  exact hs.audit_eq

theorem audit_eq_of_violation (h : validate modules expected = .error (.violation v)) :
    audit Rule.defaults expected modules =
      .ok ((Report.opening modules).addIssue (Issue.ofViolation (.ofKind v.kind) v)) := by
  obtain ⟨rule, hrule⟩ := RuleKind.firstFailure_of_raise h
  have ⟨_, _, _, _, _, hcheck⟩ := hrule
  rw [Rule.ofKind_of_check hcheck]
  exact hrule.audit_eq

theorem audit_of_violation (h : validate modules expected = .error (.violation v)) :
    ∃ rule, audit Rule.defaults expected modules =
      .ok ((Report.opening modules).addIssue (Issue.ofViolation rule v)) :=
  ⟨_, audit_eq_of_violation h⟩

end BundleGraph
