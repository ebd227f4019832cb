import BundleGraph.Proofs.Audit.RuleKind

/-!
# Runs of the rules for bundles

A run over a list of rules goes on with the context that a passed rule leaves and ends with the
failure of the first rule that does not pass. Only the rule that builds the map leaves another
context than it was given.
-/
namespace BundleGraph

namespace Context

variable {c c' : Context} {failure : Failure} {v : Violation} {f : Fault}
variable {violation? : DependencyMap → Option Violation}

theorem pass_eq_ok_iff {found : Option Failure} :
    c.pass found = .ok c' ↔ found = none ∧ c' = c := by
  cases found <;> simp [pass, eq_comm]

theorem pass_eq_error_iff {found : Option Failure} :
    c.pass found = .error failure ↔ found = some failure := by
  cases found <;> simp [pass]

/-- A rule that reads the map passes if there is one in which it finds nothing. -/
theorem map_bind_pass_eq_ok_iff {found : DependencyMap → Option Failure} :
    (c.map.bind fun m => c.pass (found m)) = .ok c' ↔
      (∃ m, c.map? = some m ∧ found m = none) ∧ c' = c := by
  cases hmap : c.map? with
  | none => simp [map, hmap, Except.bind]
  | some m => simp [map, hmap, Except.bind, pass_eq_ok_iff]

theorem map_bind_pass_eq_error_iff {found : DependencyMap → Option Failure} :
    (c.map.bind fun m => c.pass (found m)) = .error failure ↔
      c.map? = none ∧ failure = .fault .mapNotBuilt ∨
        ∃ m, c.map? = some m ∧ found m = some failure := by
  cases hmap : c.map? with
  | none => simp [map, hmap, Except.bind, eq_comm]
  | some m => simp [map, hmap, Except.bind, pass_eq_error_iff]

theorem pass_eq_violation_iff {found : Option Violation} :
    c.pass (found.map .violation) = .error (.violation v) ↔ found = some v := by
  simp [pass_eq_error_iff]

theorem passMap_eq_violation_iff : c.passMap violation? = .error (.violation v) ↔
    ∃ m, c.map? = some m ∧ violation? m = some v := by
  simp [passMap, map_bind_pass_eq_error_iff]

/-- A search for violations only gives up where there is no map. -/
theorem passMap_eq_fault_iff : c.passMap violation? = .error (.fault f) ↔
    c.map? = none ∧ f = .mapNotBuilt := by
  simp [passMap, map_bind_pass_eq_error_iff]

end Context

namespace Rule

variable {c c' : Context} {r : Rule} {rules : List Rule} {failure : Failure}

def outcome (c : Context) (rules : List Rule) : Except Failure Unit := kind.raise c rules

theorem validate_eq_outcome (modules : List Manifest) (expected : Name) (rules : List Rule) :
    validate modules expected rules = outcome ⟨modules, expected, none⟩ rules := rfl

@[simp] theorem outcome_nil (c : Context) : outcome c [] = .ok () := rfl

theorem outcome_cons_of_ok (h : r.check c = .ok c') :
    outcome c (r :: rules) = outcome c' rules :=
  RuleKind.raise_cons_of_ok h

theorem outcome_cons_of_error (h : r.check c = .error failure) :
    outcome c (r :: rules) = .error failure :=
  RuleKind.raise_cons_of_error h

theorem check_dependencyMap_of_ok {m : DependencyMap}
    (h : DependencyMap.ofModules c.modules = .ok m) :
    dependencyMap.check c = .ok { c with map? := some m } := by
  simp [check, h, Except.map]

theorem check_dependencyMap_of_error (h : DependencyMap.ofModules c.modules = .error failure) :
    dependencyMap.check c = .error failure := by
  simp [check, h, Except.map]

theorem check_eq_ok_cases (h : r.check c = .ok c') :
    r ≠ dependencyMap ∧ c' = c ∨ r = dependencyMap ∧
      ∃ m, DependencyMap.ofModules c.modules = .ok m ∧ c' = { c with map? := some m } := by
  cases r with
  | basePresence => exact .inl ⟨nofun, (Context.pass_eq_ok_iff.1 h).2⟩
  | splitIds => exact .inl ⟨nofun, (Context.pass_eq_ok_iff.1 h).2⟩
  | dependencyMap =>
    cases hm : DependencyMap.ofModules c.modules with
    | error failure => simp [check_dependencyMap_of_error hm] at h
    | ok m =>
      rw [check_dependencyMap_of_ok hm, Except.ok.injEq] at h
      exact .inr ⟨rfl, m, rfl, h.symm⟩
  | noSelfDependencies => exact .inl ⟨nofun, (Context.map_bind_pass_eq_ok_iff.1 h).2⟩
  | noRepeats => exact .inl ⟨nofun, (Context.map_bind_pass_eq_ok_iff.1 h).2⟩
  | knownModules => exact .inl ⟨nofun, (Context.map_bind_pass_eq_ok_iff.1 h).2⟩
  | noCycles => exact .inl ⟨nofun, (Context.map_bind_pass_eq_ok_iff.1 h).2⟩
  | deliveryOrder => exact .inl ⟨nofun, (Context.map_bind_pass_eq_ok_iff.1 h).2⟩

end Rule

theorem audit_eq_error_iff {rules : List Rule} {expected : Name} {modules : List Manifest}
    {f : Fault} : audit rules expected modules = .error f ↔
      validate modules expected rules = .error (.fault f) := by
  have htold : ∀ failure : Failure, failure.told = .error f ↔ failure = .fault f := by
    intro failure
    cases failure <;> simp [Failure.told]
  rw [audit, RuleKind.audit_eq_error_iff]
  constructor
  · rintro ⟨failure, hfailure, h⟩
    rwa [(htold failure).1 h] at hfailure
  · exact fun h => ⟨_, h, rfl⟩

end BundleGraph
