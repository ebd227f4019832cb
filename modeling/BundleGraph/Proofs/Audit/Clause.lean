import BundleGraph.Proofs.Audit.Verdict

/-!
# What the clauses ask

Whether a clause describes a violation does not depend on the order of the modules, only which one
it describes. So a bundle is accepted under conditions on its modules and on its root alone, and two
bundles whose clauses describe something together come to verdicts of one kind.
-/
namespace BundleGraph

open Relation (TransGen)

namespace Clause

variable {modules : List Manifest} {expected root : Name}

theorem exists_missingBase_iff :
    (∃ v, missingBase expected modules v) ↔ ¬∃ x ∈ modules, x.isBase := by
  simp [missingBase]

theorem exists_onDemandBase_iff :
    (∃ v, onDemandBase modules v) ↔ ∃ x ∈ modules, x.isBase ∧ x.onDemand := by
  rw [← exists_isFirst_iff]
  simp [onDemandBase]

theorem exists_splitId_iff :
    (∃ v, splitId modules v) ↔ ∃ x ∈ modules, x.Misidentified := by
  rw [← exists_isFirst_iff]
  constructor
  · rintro ⟨v, x, id, hx, -⟩
    exact ⟨x, hx⟩
  · rintro ⟨x, hx⟩
    obtain ⟨id, hid, -⟩ := hx.holds
    exact ⟨_, x, id, hx, hid, rfl⟩

theorem exists_misplaced_iff (hroot : baseName? modules = some root) :
    (∃ v, misplaced modules v) ↔
      ¬((modules.map Manifest.name).Nodup ∧ ∀ x ∈ modules, root ∉ x.usesSplits) := by
  constructor
  · rintro ⟨v, root', hroot', before, x, ⟨⟨after, rfl⟩, hx, -⟩, -⟩ ⟨hnodup, himplicit⟩
    obtain rfl : root = root' := Option.some.inj (hroot.symm.trans hroot')
    rcases hx with hname | hx
    · rw [List.map_append, List.nodup_append] at hnodup
      exact hnodup.2.2 _ hname _ (by simp) rfl
    · exact himplicit x (by simp) hx
  · intro h
    rcases DependencyMap.ofModules_cases hroot with ⟨m, -, hm, -⟩ | ⟨before, x, -, hfirst⟩
    · exact absurd ⟨hm.nodup_names, hm.implicit⟩ h
    · exact ⟨_, root, hroot, before, x, hfirst, rfl⟩

theorem exists_selfDependency_iff :
    (∃ v, selfDependency modules v) ↔ ∃ x ∈ modules, x.name ∈ x.usesSplits := by
  rw [← exists_isFirst_iff]
  simp [selfDependency]

theorem exists_repeatedDependency_iff :
    (∃ v, repeatedDependency modules v) ↔ ∃ x ∈ modules, ¬x.usesSplits.Nodup := by
  rw [← exists_isFirst_iff]
  constructor
  · rintro ⟨v, x, d, hx, -⟩
    exact ⟨x, hx⟩
  · rintro ⟨x, hx⟩
    have hrepeat : Inspection.firstRepeat? [] x.usesSplits ≠ none := by
      rw [ne_eq, Inspection.firstRepeat?_eq_none_iff]
      exact fun h => hx.holds h.1
    obtain ⟨d, hd⟩ := Option.ne_none_iff_exists'.1 hrepeat
    obtain ⟨before, hbefore⟩ := Inspection.firstRepeat?_eq_some_iff.1 hd
    exact ⟨_, x, d, hx, ⟨before, by simpa using hbefore⟩, rfl⟩

theorem exists_unknownModule_iff :
    (∃ v, unknownModule modules v) ↔
      ∃ x ∈ modules, ∃ d ∈ x.usesSplits, d ∉ modules.map Manifest.name := by
  have hfirst : (∃ v, unknownModule modules v) ↔
      ∃ d, IsFirst (· ∉ modules.map Manifest.name) (modules.flatMap Manifest.usesSplits) d := by
    constructor
    · rintro ⟨v, d, hd, -⟩
      exact ⟨d, hd⟩
    · rintro ⟨d, hd⟩
      exact ⟨_, d, hd, rfl⟩
  rw [hfirst, exists_isFirst_iff]
  constructor
  · rintro ⟨d, hd, hunknown⟩
    obtain ⟨x, hx, hd⟩ := List.mem_flatMap.1 hd
    exact ⟨x, hx, d, hd, hunknown⟩
  · rintro ⟨x, hx, d, hd, hunknown⟩
    exact ⟨d, List.mem_flatMap_of_mem hx hd, hunknown⟩

theorem exists_deliveryOrder_iff :
    (∃ v, deliveryOrder modules v) ↔ ∃ x ∈ modules, ∃ d ∈ x.usesSplits,
      ¬x.onDemand ∧ ∃ y ∈ modules, y.name = d ∧ y.onDemand := by
  have hfirst : (∃ v, deliveryOrder modules v) ↔
      ∃ e, IsFirst (fun e : Manifest × Name => ¬e.1.onDemand ∧
        ∃ y ∈ modules, y.name = e.2 ∧ y.onDemand) (declarations modules) e := by
    constructor
    · rintro ⟨v, x, d, he, -⟩
      exact ⟨(x, d), he⟩
    · rintro ⟨⟨x, d⟩, he⟩
      exact ⟨_, x, d, he, rfl⟩
  rw [hfirst, exists_isFirst_iff]
  constructor
  · rintro ⟨⟨x, d⟩, he, hdemand⟩
    obtain ⟨y, hy, he⟩ := List.mem_flatMap.1 he
    obtain ⟨e, hd, heq⟩ := List.mem_map.1 he
    obtain ⟨rfl, rfl⟩ := Prod.mk.inj heq
    exact ⟨y, hy, e, hd, hdemand⟩
  · rintro ⟨x, hx, d, hd, hdemand⟩
    exact ⟨(x, d), List.mem_flatMap_of_mem hx (List.mem_map_of_mem hd), hdemand⟩

end Clause

/-- The conditions under which a bundle with a root is accepted. -/
structure Sound (root : Name) (modules : List Manifest) : Prop where
  installTime : ∀ x ∈ modules, x.isBase → ¬x.onDemand
  identified : ∀ x ∈ modules, ¬x.Misidentified
  nodup : (modules.map Manifest.name).Nodup
  implicit : ∀ x ∈ modules, root ∉ x.usesSplits
  other : ∀ x ∈ modules, x.name ∉ x.usesSplits
  distinct : ∀ x ∈ modules, x.usesSplits.Nodup
  known : ∀ x ∈ modules, ∀ d ∈ x.usesSplits, d ∈ modules.map Manifest.name
  acyclic : ∀ x, ¬TransGen (DependsOn (dependenciesIn root modules)) x x
  delivery : ∀ x ∈ modules, ∀ d ∈ x.usesSplits, ¬x.onDemand →
    ∀ y ∈ modules, y.name = d → ¬y.onDemand

theorem verdict_ok_iff {clauses : List Clause} :
    Verdict clauses (.ok ()) ↔ ∀ c ∈ clauses, ∀ v, ¬c v := by
  constructor
  · intro h
    generalize ho : (.ok () : Except Failure Unit) = o at h
    induction h with
    | accepted => simp
    | violated => simp at ho
    | kept hc _ ih => exact List.forall_mem_cons.2 ⟨hc, ih ho⟩
  · intro h
    induction clauses with
    | nil => exact .accepted
    | cons c clauses ih =>
      obtain ⟨hc, hrest⟩ := List.forall_mem_cons.1 h
      exact .kept hc (ih hrest)

theorem kept_iff_of_root {modules : List Manifest} {expected root : Name}
    (hroot : baseName? modules = some root) :
    (∀ c ∈ Clause.all expected modules, ∀ v, ¬c v) ↔ Sound root modules := by
  have hbase : ∃ x ∈ modules, x.isBase := by
    obtain ⟨x, hx, -⟩ := baseName?_eq_some_iff.1 hroot
    exact ⟨x, hx.mem, hx.holds⟩
  have hcyclic : Cyclic modules ↔ ∃ x, TransGen (DependsOn (dependenciesIn root modules)) x x := by
    simp [Cyclic, hroot]
  simp only [Clause.all, List.forall_mem_cons]
  simp only [← not_exists, Clause.exists_missingBase_iff, Clause.exists_onDemandBase_iff,
    Clause.exists_splitId_iff, Clause.exists_misplaced_iff hroot, Clause.exists_selfDependency_iff,
    Clause.exists_repeatedDependency_iff, Clause.exists_unknownModule_iff, exists_cycle_iff,
    hcyclic, Clause.exists_deliveryOrder_iff]
  push Not
  constructor
  · rintro ⟨-, hinstall, hid, ⟨hnodup, himplicit⟩, hself, hrepeat, hknown, hcycle, hdelivery, -⟩
    exact ⟨hinstall, hid, hnodup, himplicit, hself, hrepeat, hknown, hcycle, hdelivery⟩
  · intro h
    exact ⟨hbase, h.installTime, h.identified, ⟨h.nodup, h.implicit⟩, h.other, h.distinct, h.known,
      h.acyclic, h.delivery, by simp⟩

theorem kept_iff_sound {modules : List Manifest} {expected : Name} :
    (∀ c ∈ Clause.all expected modules, ∀ v, ¬c v) ↔
      ∃ root ∈ baseName? modules, Sound root modules := by
  cases hroot : baseName? modules with
  | none =>
    have hmissing : Clause.missingBase expected modules (.missingBase expected) :=
      ⟨baseName?_eq_none_iff.1 hroot, rfl⟩
    simp only [Option.not_mem_none, false_and, exists_false, iff_false]
    exact fun h => h _ (by simp [Clause.all]) _ hmissing
  | some root => simp [kept_iff_of_root hroot]

/-- A bundle is accepted if it is sound about the root that it has. -/
theorem validate_eq_ok_iff {modules : List Manifest} {expected : Name} :
    validate modules expected = .ok () ↔ ∃ root ∈ baseName? modules, Sound root modules := by
  rw [Rule.validate_eq_outcome, outcome_defaults_iff, verdict_ok_iff, kept_iff_sound]

theorem Sound.exists_describes {root : Name} {modules : List Manifest} (h : Sound root modules)
    (hroot : baseName? modules = some root) :
    ∃ m, DependencyMap.ofModules modules = .ok m ∧ m.Describes root modules := by
  rcases DependencyMap.ofModules_cases hroot with ⟨m, hm, hdesc, -⟩ | ⟨before, x, -, hfirst⟩
  · exact ⟨m, hm, hdesc⟩
  · exact absurd ⟨h.nodup, h.implicit⟩
      ((Clause.exists_misplaced_iff hroot).1 ⟨_, root, hroot, before, x, hfirst, rfl⟩)

/-- Two lists of clauses of which each two describe something together, and then something alike.
Only clauses behind which all describe nothing have to be compared. -/
inductive Matched (like : Violation → Violation → Prop) : List Clause → List Clause → Prop
  | nil : Matched like [] []
  | cons {c c' : Clause} {rest rest' : List Clause} (both : (∃ v, c v) ↔ ∃ v, c' v)
      (alike : ∀ v v', c v → c' v' → like v v')
      (later : (¬∃ v, c v) → Matched like rest rest') : Matched like (c :: rest) (c' :: rest')

/-- Matched clauses accept together, or come to violations that are alike. -/
theorem Matched.verdicts {like : Violation → Violation → Prop} {clauses clauses' : List Clause}
    (h : Matched like clauses clauses') {o o' : Except Failure Unit} (ho : Verdict clauses o)
    (ho' : Verdict clauses' o') : o = .ok () ∧ o' = .ok () ∨
      ∃ v v', o = .error (.violation v) ∧ o' = .error (.violation v') ∧ like v v' := by
  induction h with
  | nil =>
    cases ho
    cases ho'
    exact .inl ⟨rfl, rfl⟩
  | cons both alike later ih =>
    cases ho with
    | violated hv =>
      cases ho' with
      | violated hv' => exact .inr ⟨_, _, rfl, rfl, alike _ _ hv hv'⟩
      | kept hnone _ => exact absurd (both.1 ⟨_, hv⟩) (not_exists.2 hnone)
    | kept hnone hrest =>
      cases ho' with
      | violated hv' => exact absurd (both.2 ⟨_, hv'⟩) (not_exists.2 hnone)
      | kept _ hrest' => exact ih (not_exists.2 hnone) hrest hrest'

end BundleGraph
