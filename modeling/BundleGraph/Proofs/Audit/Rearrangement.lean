import BundleGraph.Proofs.Audit.Clause
import BundleGraph.Proofs.Audit.Report

/-!
# Declarations in another order

The verdict on a bundle does not depend on the order in which it is declared, as long as the root
stays the same. Each clause asks for something that another order keeps; for the clause on cycles
this needs distinct names, which an earlier clause settles. Only between a repeated name and a
declared root, which are looked for together, the order may decide.
-/
namespace BundleGraph

open Violation (Kind)

/-- Two manifests declare the same, the dependencies in any order. -/
structure Manifest.SameUpToOrder (x y : Manifest) : Prop where
  name : x.name = y.name
  isBase : x.isBase = y.isBase
  onDemand : x.onDemand = y.onDemand
  splitId : x.splitId = y.splitId
  usesSplits : x.usesSplits.Perm y.usesSplits

/-- The modules of a bundle in another order, and so the dependencies of each. The root is the
same. -/
structure Rearranged (modules modules' : List Manifest) : Prop where
  shuffled : ∃ l, modules.Perm l ∧ List.Forall₂ Manifest.SameUpToOrder l modules'
  root_eq : baseName? modules = baseName? modules'

/-- The same kinds, or the two that depend on the order. -/
def Violation.Kind.Interchangeable (k k' : Kind) : Prop :=
  k = k' ∨ k = .duplicateModuleEntry ∧ k' = .explicitRootDependency ∨
    k = .explicitRootDependency ∧ k' = .duplicateModuleEntry

/-- Two issues of one rule, and of interchangeable kinds. -/
def Issue.Alike (i i' : Issue) : Prop :=
  i.rule = i'.rule ∧
    ∃ k k' : Kind, i.kind = some k.name ∧ i'.kind = some k'.name ∧ k.Interchangeable k' ∧
      (k ≠ k' → i.rule = Rule.dependencyMap.name)

theorem Violation.Kind.Interchangeable.ofKind_eq {k k' : Kind} (h : k.Interchangeable k') :
    Rule.ofKind k = Rule.ofKind k' ∧ (k ≠ k' → Rule.ofKind k = .dependencyMap) := by
  rcases h with rfl | ⟨rfl, rfl⟩ | ⟨rfl, rfl⟩ <;> simp [Rule.ofKind]

theorem Issue.alike_ofViolation {v v' : Violation} (h : v.kind.Interchangeable v'.kind) :
    Alike (ofViolation (.ofKind v.kind) v) (ofViolation (.ofKind v'.kind) v') := by
  obtain ⟨heq, hmap⟩ := h.ofKind_eq
  exact ⟨congrArg Rule.name heq, v.kind, v'.kind, rfl, rfl, h,
    fun hne => congrArg Rule.name (hmap hne)⟩

theorem Clause.kind_of_misplaced {modules : List Manifest} {v : Violation}
    (h : misplaced modules v) :
    v.kind = .duplicateModuleEntry ∨ v.kind = .explicitRootDependency := by
  obtain ⟨root, -, before, x, -, rfl⟩ := h
  rw [misplacement]
  split_ifs
  · exact .inl rfl
  · exact .inr rfl

namespace Rearranged

variable {modules modules' : List Manifest} (h : Rearranged modules modules')

include h

/-- What does not depend on the order of dependencies is the same in another order of modules. -/
theorem map_perm {β : Type*} {f : Manifest → β} (hf : ∀ x y, x.SameUpToOrder y → f x = f y) :
    (modules.map f).Perm (modules'.map f) := by
  obtain ⟨l, hperm, hsame⟩ := h.shuffled
  have heq : l.map f = modules'.map f := by
    rw [← List.forall₂_eq_eq_eq, List.forall₂_map_left_iff, List.forall₂_map_right_iff]
    exact hsame.imp hf
  exact heq ▸ hperm.map f

theorem exists_iff {p : Manifest → Prop} (hp : ∀ x y, x.SameUpToOrder y → (p x ↔ p y)) :
    (∃ x ∈ modules, p x) ↔ ∃ x ∈ modules', p x := by
  have hmem := (h.map_perm fun x y hxy => propext (hp x y hxy)).mem_iff (a := True)
  simpa using hmem

theorem names_perm : (modules.map Manifest.name).Perm (modules'.map Manifest.name) :=
  h.map_perm fun _ _ hxy => hxy.name

theorem tallies_eq : Report.tallies modules = Report.tallies modules' := by
  have hlength : modules.length = modules'.length := by
    simpa using h.names_perm.length_eq
  have hsum := (h.map_perm fun x y hxy => hxy.usesSplits.length_eq).sum_eq
  have hcount := (h.map_perm fun x y hxy => hxy.onDemand).countP_eq id
  simp only [List.countP_map, Function.id_comp] at hcount
  simp only [Report.tallies, hlength, hsum, hcount]

theorem exists_misplaced_iff :
    (∃ v, Clause.misplaced modules v) ↔ ∃ v, Clause.misplaced modules' v := by
  cases hroot : baseName? modules with
  | none => simp [Clause.misplaced, hroot, ← h.root_eq]
  | some root =>
    have himplicit := h.exists_iff (p := fun x => root ∈ x.usesSplits)
      fun x y hxy => hxy.usesSplits.mem_iff
    rw [Clause.exists_misplaced_iff hroot, Clause.exists_misplaced_iff (h.root_eq ▸ hroot),
      h.names_perm.nodup_iff]
    simp only [not_and, not_forall, not_not, exists_prop, himplicit]

theorem exists_unknownModule_iff :
    (∃ v, Clause.unknownModule modules v) ↔ ∃ v, Clause.unknownModule modules' v := by
  simp only [Clause.exists_unknownModule_iff, h.names_perm.mem_iff]
  exact h.exists_iff fun x y hxy => by simp only [hxy.usesSplits.mem_iff]

/-- Distinct names have the same dependencies in another order. -/
theorem cyclic_iff (hnodup : (modules.map Manifest.name).Nodup) :
    Cyclic modules ↔ Cyclic modules' := by
  have hdepends (root : Name) :
      DependsOn (dependenciesIn root modules) = DependsOn (dependenciesIn root modules') := by
    funext x d
    rw [DependsOn, DependsOn, mem_dependenciesIn_iff hnodup,
      mem_dependenciesIn_iff (h.names_perm.nodup_iff.1 hnodup),
      h.exists_iff fun x y hxy => by rw [hxy.name, hxy.usesSplits.mem_iff]]
  simp only [Cyclic, hdepends, h.root_eq]

theorem exists_cycle_iff (hplaced : ¬∃ v, Clause.misplaced modules v) :
    (∃ v, Clause.cycle modules v) ↔ ∃ v, Clause.cycle modules' v := by
  cases hroot : baseName? modules with
  | none => simp [Clause.cycle, hroot, ← h.root_eq]
  | some root =>
    rw [Clause.exists_misplaced_iff hroot, not_not] at hplaced
    rw [BundleGraph.exists_cycle_iff, BundleGraph.exists_cycle_iff, h.cyclic_iff hplaced.1]

theorem exists_deliveryOrder_iff :
    (∃ v, Clause.deliveryOrder modules v) ↔ ∃ v, Clause.deliveryOrder modules' v := by
  have hdemand (d : Name) := h.exists_iff (p := fun y => y.name = d ∧ y.onDemand)
    fun x y hxy => by rw [hxy.name, hxy.onDemand]
  simp only [Clause.exists_deliveryOrder_iff, hdemand]
  exact h.exists_iff fun x y hxy => by simp only [hxy.usesSplits.mem_iff, hxy.onDemand]

end Rearranged

/-- Clauses that describe violations of one kind are matched if they describe something
together. -/
theorem Matched.cons_of_kind {c : List Manifest → Clause} {modules modules' : List Manifest}
    {rest rest' : List Clause} (k : Kind) (hkind : ∀ modules v, c modules v → v.kind = k)
    (both : (∃ v, c modules v) ↔ ∃ v, c modules' v)
    (later : (¬∃ v, c modules v) →
      Matched (fun v v' => v.kind.Interchangeable v'.kind) rest rest') :
    Matched (fun v v' => v.kind.Interchangeable v'.kind) (c modules :: rest)
      (c modules' :: rest') :=
  .cons both (fun v v' hv hv' => .inl ((hkind _ v hv).trans (hkind _ v' hv').symm)) later

/-- Clause by clause, both orders ask for the same. -/
theorem Rearranged.matched {modules modules' : List Manifest} (h : Rearranged modules modules')
    (expected : Name) :
    Matched (fun v v' => v.kind.Interchangeable v'.kind) (Clause.all expected modules)
      (Clause.all expected modules') := by
  refine .cons_of_kind (c := Clause.missingBase expected) .missingRootModule ?_ ?_ fun _ => ?_
  · rintro _ _ ⟨-, rfl⟩
    rfl
  · rw [Clause.exists_missingBase_iff, Clause.exists_missingBase_iff,
      h.exists_iff fun x y hxy => by rw [hxy.isBase]]
  refine .cons_of_kind .onDemandRootModule ?_ ?_ fun _ => ?_
  · rintro _ _ ⟨x, -, rfl⟩
    rfl
  · rw [Clause.exists_onDemandBase_iff, Clause.exists_onDemandBase_iff,
      h.exists_iff fun x y hxy => by rw [hxy.isBase, hxy.onDemand]]
  refine .cons_of_kind .identifierMismatch ?_ ?_ fun _ => ?_
  · rintro _ _ ⟨x, id, -, -, rfl⟩
    split_ifs <;> rfl
  · rw [Clause.exists_splitId_iff, Clause.exists_splitId_iff,
      h.exists_iff fun x y hxy => by
        simp only [Manifest.Misidentified, hxy.name, hxy.isBase, hxy.splitId]]
  refine .cons h.exists_misplaced_iff (fun v v' hv hv' => ?_) fun hplaced => ?_
  · have hkind := Clause.kind_of_misplaced hv
    have hkind' := Clause.kind_of_misplaced hv'
    unfold Kind.Interchangeable
    grind
  refine .cons_of_kind .selfDependency ?_ ?_ fun _ => ?_
  · rintro _ _ ⟨x, -, rfl⟩
    rfl
  · rw [Clause.exists_selfDependency_iff, Clause.exists_selfDependency_iff,
      h.exists_iff fun x y hxy => by rw [hxy.name, hxy.usesSplits.mem_iff]]
  refine .cons_of_kind .duplicateDependencyDeclaration ?_ ?_ fun _ => ?_
  · rintro _ _ ⟨x, d, -, -, rfl⟩
    rfl
  · rw [Clause.exists_repeatedDependency_iff, Clause.exists_repeatedDependency_iff,
      h.exists_iff fun x y hxy => by rw [hxy.usesSplits.nodup_iff]]
  refine .cons_of_kind .unknownModuleReference ?_ h.exists_unknownModule_iff fun _ => ?_
  · rintro _ _ ⟨d, -, rfl⟩
    rfl
  refine .cons_of_kind .cyclicDependency ?_ (h.exists_cycle_iff hplaced) fun _ => ?_
  · rintro _ _ ⟨root, -, path, -, rfl⟩
    rfl
  refine .cons_of_kind .invalidDeliveryOrdering ?_ h.exists_deliveryOrder_iff fun _ => .nil
  rintro _ _ ⟨x, d, -, rfl⟩
  rfl

/-- Bundles that differ in the order of declarations are audited with the same result, but for the
names and the paths that are told, and for the two kinds that one rule finds. -/
theorem audit_of_rearranged {modules modules' : List Manifest} (h : Rearranged modules modules')
    (expected : Name) :
    ∃ report report', audit Rule.defaults expected modules = .ok report ∧
      audit Rule.defaults expected modules' = .ok report' ∧
      report.status = report'.status ∧ report.exitCode = report'.exitCode ∧
      report.counters = report'.counters ∧
      List.Forall₂ Issue.Alike report.issues report'.issues := by
  have hverdict := outcome_defaults_iff.1 (Rule.validate_eq_outcome modules expected _).symm
  have hverdict' := outcome_defaults_iff.1 (Rule.validate_eq_outcome modules' expected _).symm
  rcases (h.matched expected).verdicts hverdict hverdict' with ⟨hok, hok'⟩ | ⟨v, v', hv, hv', hlike⟩
  · exact ⟨_, _, audit_of_ok hok, audit_of_ok hok', rfl, rfl, by simp [h.tallies_eq], .nil⟩
  · exact ⟨_, _, audit_eq_of_violation hv, audit_eq_of_violation hv', rfl, rfl,
      by simp [h.tallies_eq], .cons (Issue.alike_ofViolation hlike) .nil⟩

/-- A declared root stands in front of a repeated name, and behind it in another order. -/
theorem audit_of_rearranged_net :
    let modules : List Manifest := [⟨"base", true, false, none, []⟩,
      ⟨"a", false, false, none, ["net", "base"]⟩, ⟨"net", false, false, none, []⟩,
      ⟨"net", false, true, none, []⟩]
    let modules' : List Manifest := [⟨"net", false, true, none, []⟩,
      ⟨"base", true, false, none, []⟩, ⟨"net", false, false, none, []⟩,
      ⟨"a", false, false, none, ["base", "net"]⟩]
    Rearranged modules modules' ∧
      validate modules "base" = .error (.violation (.explicitBase "a" "base")) ∧
      validate modules' "base" = .error (.violation (.duplicateModule "net")) ∧
      ∃ report report', audit Rule.defaults "base" modules = .ok report ∧
        audit Rule.defaults "base" modules' = .ok report' ∧
        report.status = report'.status ∧ report.exitCode = report'.exitCode ∧
        report.counters = report'.counters ∧
        List.Forall₂ Issue.Alike report.issues report'.issues := by
  intro modules modules'
  have hsame (x : Manifest) : x.SameUpToOrder x := ⟨rfl, rfl, rfl, rfl, .refl _⟩
  have h : Rearranged modules modules' := by
    refine ⟨⟨[⟨"net", false, true, none, []⟩, ⟨"base", true, false, none, []⟩,
      ⟨"net", false, false, none, []⟩, ⟨"a", false, false, none, ["net", "base"]⟩], ?_, ?_⟩, rfl⟩
    · decide
    · exact .cons (hsame _) (.cons (hsame _) (.cons (hsame _)
        (.cons ⟨rfl, rfl, rfl, rfl, by decide⟩ .nil)))
  exact ⟨h, by cbv, by cbv, audit_of_rearranged h "base"⟩

end BundleGraph
