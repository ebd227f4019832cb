import BundleGraph.Proofs.Audit.Inspection
import BundleGraph.Proofs.Audit.Rule

/-!
# The verdict on a bundle

What a validation comes to, said of the modules alone. Nine clauses describe violations, each with
the module or the place that it blames, and the first clause that describes anything settles the
verdict. The map, with its implicit edges to the root, does not occur in them, save that a cycle may
lead through the root.
-/
namespace BundleGraph

/-- A description of a violation. -/
abbrev Clause := Violation → Prop

/-- What a validation comes to by clauses in their order. -/
inductive Verdict : List Clause → Except Failure Unit → Prop
  | accepted : Verdict [] (.ok ())
  | violated {c rest v} (h : c v) : Verdict (c :: rest) (.error (.violation v))
  | kept {c rest o} (h : ∀ v, ¬c v) (later : Verdict rest o) : Verdict (c :: rest) o

namespace Clause

/-- No module is a base module. -/
def missingBase (expected : Name) (modules : List Manifest) : Clause := fun v =>
  (∀ x ∈ modules, ¬x.isBase) ∧ v = .missingBase expected

/-- The first base module that is delivered on demand. -/
def onDemandBase (modules : List Manifest) : Clause := fun v =>
  ∃ x, IsFirst (fun x => x.isBase ∧ x.onDemand) modules x ∧ v = .onDemandBase x.name

/-- The first module with a split ID that it may not have. -/
def splitId (modules : List Manifest) : Clause := fun v =>
  ∃ x id, IsFirst Manifest.Misidentified modules x ∧ x.splitId = some id ∧
    v = if x.isBase then .baseSplitId x.name id else .foreignSplitId x.name id

/-- The first module that repeats a name or declares the root; the repeated name counts first. -/
def misplaced (modules : List Manifest) : Clause := fun v =>
  ∃ root ∈ baseName? modules, ∃ before x, IsFirstAt (Misplaced root) modules before x ∧
    v = misplacement root before x

/-- The first module that declares itself. -/
def selfDependency (modules : List Manifest) : Clause := fun v =>
  ∃ x, IsFirst (fun x => x.name ∈ x.usesSplits) modules x ∧ v = .selfDependency x.name

/-- The first module that declares a name twice, and the name that it repeats first. -/
def repeatedDependency (modules : List Manifest) : Clause := fun v =>
  ∃ x d, IsFirst (fun x => ¬x.usesSplits.Nodup) modules x ∧
    (∃ before, IsFirstAt (fun b y => y ∈ b) x.usesSplits before d) ∧
    v = .repeatedDependency x.name d

/-- The first declared name that no module has. -/
def unknownModule (modules : List Manifest) : Clause := fun v =>
  ∃ d, IsFirst (· ∉ modules.map Manifest.name) (modules.flatMap Manifest.usesSplits) d ∧
    v = .unknownModule d

/-- A cycle of declared dependencies and of those on the root, with the path that shows it. -/
def cycle (modules : List Manifest) : Clause := fun v =>
  ∃ root ∈ baseName? modules, ∃ path,
    IsCyclePath (dependenciesIn root modules) (modules.map Manifest.name) path ∧ v = .cycle path

/-- The declared dependencies in order. -/
def declarations (modules : List Manifest) : List (Manifest × Name) :=
  modules.flatMap fun x => x.usesSplits.map (x, ·)

/-- The first declaration by which a module delivered at install time needs one on demand. -/
def deliveryOrder (modules : List Manifest) : Clause := fun v =>
  ∃ x d, IsFirst (fun e => ¬e.1.onDemand ∧ ∃ y ∈ modules, y.name = e.2 ∧ y.onDemand)
    (declarations modules) (x, d) ∧ v = .onDemandDependency x.name d

/-- All clauses in the order in which they count. -/
def all (expected : Name) (modules : List Manifest) : List Clause :=
  [missingBase expected modules, onDemandBase modules, splitId modules, misplaced modules,
    selfDependency modules, repeatedDependency modules, unknownModule modules, cycle modules,
    deliveryOrder modules]

end Clause

/-- Dependencies, declared or on the root, lead from some module back to it by way of another. -/
def Cyclic (modules : List Manifest) : Prop :=
  ∃ root ∈ baseName? modules, ∃ x, Relation.TransGen (DependsOn (dependenciesIn root modules)) x x

theorem exists_cycle_iff {modules : List Manifest} :
    (∃ v, Clause.cycle modules v) ↔ Cyclic modules := by
  have hnil (root : Name) : ∀ x, x ∉ modules.map Manifest.name →
      dependenciesIn root modules x = [] := fun _ => dependenciesIn_eq_nil
  constructor
  · intro h
    obtain ⟨_, root, hroot, path, ⟨⟨x, _, hx⟩, _⟩, _⟩ := h
    exact ⟨root, hroot, (exists_leadsToCycle_iff (hnil root)).1 ⟨x, hx.mem, hx.holds⟩⟩
  · intro h
    obtain ⟨root, hroot, hcycle⟩ := h
    obtain ⟨path, hpath⟩ :=
      exists_isCyclePath (hnil root) ((exists_leadsToCycle_iff (hnil root)).2 hcycle)
    exact ⟨.cycle path, root, hroot, path, hpath, rfl⟩

section Stages

variable {clause : Clause} {clauses : List Clause} {o : Except Failure Unit}

theorem verdict_nil_iff : Verdict [] o ↔ .ok () = o := by
  constructor
  · rintro ⟨⟩
    rfl
  · rintro rfl
    exact .accepted

theorem verdict_cons_of_kept (h : ∀ v, ¬clause v) :
    Verdict (clause :: clauses) o ↔ Verdict clauses o := by
  constructor
  · intro ho
    cases ho with
    | violated hv => exact absurd hv (h _)
    | kept _ later => exact later
  · exact .kept h

theorem verdict_cons_of_violated {v : Violation} (h : ∀ w, clause w ↔ w = v) :
    Verdict (clause :: clauses) o ↔ .error (.violation v) = o := by
  constructor
  · intro ho
    cases ho with
    | violated hw => rw [(h _).1 hw]
    | kept hnone _ => exact absurd ((h v).2 rfl) (hnone v)
  · rintro rfl
    exact .violated ((h v).2 rfl)

/-- A rule that finds what a clause describes settles the verdict or leaves it to the rest. -/
theorem outcome_eq_iff_verdict {found : Option Failure} {c : Context} {r : Rule}
    {rules : List Rule} (hcheck : r.check c = c.pass found)
    (hfound : ∀ failure, found = some failure ↔ ∃ v, clause v ∧ failure = .violation v)
    (hrest : found = none → (Rule.outcome c rules = o ↔ Verdict clauses o)) :
    Rule.outcome c (r :: rules) = o ↔ Verdict (clause :: clauses) o := by
  cases found with
  | none =>
    have hkept : ∀ v, ¬clause v := fun v hv => by simpa using (hfound (.violation v)).2 ⟨v, hv, rfl⟩
    rw [Rule.outcome_cons_of_ok hcheck, verdict_cons_of_kept hkept, hrest rfl]
  | some failure =>
    obtain ⟨v, hv, rfl⟩ := (hfound failure).1 rfl
    have hunique : ∀ w, clause w ↔ w = v := by
      intro w
      constructor
      · intro hw
        simpa [eq_comm] using (hfound (.violation w)).2 ⟨w, hw, rfl⟩
      · rintro rfl
        exact hv
    rw [Rule.outcome_cons_of_error hcheck, verdict_cons_of_violated hunique]

theorem map_violation_eq_some_iff {found : Option Violation} (h : ∀ v, found = some v ↔ clause v)
    (failure : Failure) : found.map Failure.violation = some failure ↔
      ∃ v, clause v ∧ failure = .violation v := by
  simp only [Option.map_eq_some_iff, h, eq_comm (a := failure)]

end Stages

namespace DependencyMap.Describes

open Inspection

variable {m : DependencyMap} {root : Name} {modules : List Manifest} {v : Violation}
variable (h : m.Describes root modules)

include h

theorem filter_ne_root {x : Manifest} (hx : x ∈ modules) :
    (x.usesSplits ++ [root]).filter (· ≠ root) = x.usesSplits := by
  have hne : x.usesSplits.filter (· ≠ root) = x.usesSplits := by
    rw [List.filter_eq_self]
    intro d hd
    rw [decide_eq_true_eq]
    rintro rfl
    exact h.implicit x hx hd
  rw [List.filter_append, hne]
  simp

theorem selfViolation?_iff : selfViolation? m = some v ↔ Clause.selfDependency modules v := by
  have hself : ∀ x ∈ modules,
      (x.name ≠ m.base ∧ x.name ∈ m.get x.name ↔ x.name ∈ x.usesSplits) := by
    intro x hx
    rw [h.base_eq, h.get_eq, h.dependenciesIn_name hx]
    have := h.implicit x hx
    simp only [List.mem_append, List.mem_singleton]
    constructor
    · rintro ⟨hne, hmem | heq⟩
      · exact hmem
      · exact absurd heq hne
    · intro hmem
      exact ⟨fun heq => this (heq ▸ hmem), .inl hmem⟩
  rw [selfViolation?_eq_some_iff, h.keys_eq]
  simp only [isFirst_map, isFirst_congr hself, Clause.selfDependency]
  constructor
  · intro h
    obtain ⟨_, ⟨x, hx, rfl⟩, hv⟩ := h
    exact ⟨x, hx, hv⟩
  · intro h
    obtain ⟨x, hx, hv⟩ := h
    exact ⟨_, ⟨x, hx, rfl⟩, hv⟩

theorem repeatViolation?_iff :
    repeatViolation? m = some v ↔ Clause.repeatedDependency modules v := by
  have hnodup : ∀ x ∈ modules, (¬(x.usesSplits ++ [root]).Nodup ↔ ¬x.usesSplits.Nodup) := by
    intro x hx
    rw [List.nodup_append_comm]
    simp [h.implicit x hx]
  have hfirst : ∀ x ∈ modules, ∀ d,
      (∃ before, IsFirstAt (fun b y => y ∈ b) (x.usesSplits ++ [root]) before d) ↔
        ∃ before, IsFirstAt (fun b y => y ∈ b) x.usesSplits before d :=
    fun x hx d => exists_congr fun before => isFirstAt_append_singleton (h.implicit x hx)
  rw [repeatViolation?_eq_some_iff, h.rows_eq]
  simp only [isFirst_map, Clause.repeatedDependency, Manifest.row]
  constructor
  · intro h
    obtain ⟨_, d, ⟨x, hx, rfl⟩, hd, hv⟩ := h
    exact ⟨x, d, (isFirst_congr hnodup).1 hx, (hfirst x hx.mem d).1 hd, hv⟩
  · intro h
    obtain ⟨x, d, hx, hd, hv⟩ := h
    exact ⟨_, d, ⟨x, (isFirst_congr hnodup).2 hx, rfl⟩, (hfirst x hx.mem d).2 hd, hv⟩

theorem unknownViolation?_iff :
    unknownViolation? m = some v ↔ Clause.unknownModule modules v := by
  have hdeclared : modules.flatMap Manifest.usesSplits =
      (modules.flatMap fun x => x.usesSplits ++ [root]).filter (· ≠ root) := by
    rw [List.filter_flatMap]
    exact List.flatMap_congr fun x hx => (h.filter_ne_root hx).symm
  have hroot : ∀ d ∈ modules.flatMap fun x => x.usesSplits ++ [root],
      d ∉ modules.map Manifest.name → (decide (d ≠ root) : Bool) := by
    intro d _ hd
    rw [decide_eq_true_eq]
    rintro rfl
    exact hd h.root_mem
  rw [unknownViolation?_eq_some_iff, h.keys_eq, h.targets_eq]
  simp only [Clause.unknownModule, hdeclared, isFirst_filter hroot]

theorem cycleViolation?_iff : cycleViolation? m = some v ↔ Clause.cycle modules v := by
  rw [cycleViolation?_eq_some_iff, h.get_eq, h.keys_eq, Clause.cycle, h.root_eq]
  simp

theorem deliveryFailure?_eq_some_iff {x : Manifest} {d : Name} {failure : Failure}
    (hx : x ∈ modules) (hd : d ∈ modules.map Manifest.name) :
    deliveryFailure? modules (x.name, d) = some failure ↔
      (¬x.onDemand ∧ ∃ y ∈ modules, y.name = d ∧ y.onDemand) ∧
        failure = .violation (.onDemandDependency x.name d) := by
  obtain ⟨y, hy, rfl⟩ := List.mem_map.1 hd
  have hunique : ∀ z ∈ modules, z.name = y.name → z = y := by
    intro z hz hname
    have := last?_name_eq h.nodup_names hz
    rw [hname, last?_name_eq h.nodup_names hy] at this
    exact (Option.some.inj this).symm
  have hdemand : (∃ z ∈ modules, z.name = y.name ∧ z.onDemand) ↔ y.onDemand := by
    constructor
    · intro h
      obtain ⟨z, hz, hname, hdemand⟩ := h
      exact hunique z hz hname ▸ hdemand
    · exact fun hdemand => ⟨y, hy, rfl, hdemand⟩
  simp only [deliveryFailure?, last?_name_eq h.nodup_names hx, last?_name_eq h.nodup_names hy,
    hdemand]
  by_cases hx' : x.onDemand <;> by_cases hy' : y.onDemand <;> simp [hx', hy', eq_comm]

theorem root_installTime (hbase : ∀ x ∈ modules, x.isBase → ¬x.onDemand) :
    ¬∃ y ∈ modules, y.name = root ∧ y.onDemand := by
  obtain ⟨x, hx, rfl⟩ := baseName?_eq_some_iff.1 h.root_eq
  intro h
  obtain ⟨y, hy, hname, hdemand⟩ := h
  have hlast := last?_name_eq h.nodup_names hy
  rw [hname, last?_name_eq h.nodup_names hx.mem] at hlast
  obtain rfl := Option.some.inj hlast
  exact hbase x hy hx.holds hdemand

theorem deliveryFailures?_iff (hbase : ∀ x ∈ modules, x.isBase → ¬x.onDemand)
    (known : ∀ d ∈ m.targets, d ∈ m.keys) (failure : Failure) :
    deliveryFailures? modules m = some failure ↔
      ∃ v, Clause.deliveryOrder modules v ∧ failure = .violation v := by
  obtain ⟨edges, hedges⟩ : ∃ edges, edges =
      modules.flatMap fun x => (x.usesSplits ++ [root]).map (x, ·) := ⟨_, rfl⟩
  have hm : m.edges = edges.map fun e => (e.1.name, e.2) := by
    rw [h.edges_eq, hedges, List.map_flatMap]
    simp [Function.comp_def]
  have hmem : ∀ e ∈ edges, e.1 ∈ modules ∧ e.2 ∈ modules.map Manifest.name := by
    intro e he
    have hd : e.2 ∈ m.targets := by
      unfold DependencyMap.targets
      rw [hm, List.map_map]
      exact List.mem_map_of_mem he
    rw [hedges, List.mem_flatMap] at he
    obtain ⟨x, hx, hex⟩ := he
    obtain ⟨d, _, rfl⟩ := List.mem_map.1 hex
    exact ⟨hx, h.keys_eq ▸ known _ hd⟩
  have hdeclared : Clause.declarations modules = edges.filter (fun e => e.2 ≠ root) := by
    rw [hedges, List.filter_flatMap]
    refine List.flatMap_congr fun x hx => ?_
    rw [List.filter_map]
    exact congrArg _ (h.filter_ne_root hx).symm
  have hedge : ∀ e ∈ edges, ∀ failure, deliveryFailure? modules (e.1.name, e.2) = some failure ↔
      (¬e.1.onDemand ∧ ∃ y ∈ modules, y.name = e.2 ∧ y.onDemand) ∧
        failure = .violation (.onDemandDependency e.1.name e.2) :=
    fun e he failure => h.deliveryFailure?_eq_some_iff (hmem e he).1 (hmem e he).2
  have hsome : ∀ e ∈ edges, ((deliveryFailure? modules (e.1.name, e.2)).isSome ↔
      ¬e.1.onDemand ∧ ∃ y ∈ modules, y.name = e.2 ∧ y.onDemand) := by
    intro e he
    simp [Option.isSome_iff_exists, hedge e he]
  have hroot : ∀ e ∈ edges, (¬e.1.onDemand ∧ ∃ y ∈ modules, y.name = e.2 ∧ y.onDemand) →
      (decide (e.2 ≠ root) : Bool) := by
    rintro e _ ⟨_, hdemand⟩
    rw [decide_eq_true_eq]
    intro he
    exact h.root_installTime hbase (he ▸ hdemand)
  unfold deliveryFailures?
  rw [hm, List.findSome?_map, findSome?_eq_some_iff_isFirst]
  simp only [Clause.deliveryOrder, hdeclared, isFirst_filter hroot, Function.comp_apply,
    isFirst_congr hsome]
  constructor
  · intro h
    obtain ⟨⟨x, d⟩, he, hfailure⟩ := h
    exact ⟨_, ⟨x, d, he, rfl⟩, ((hedge _ he.mem failure).1 hfailure).2⟩
  · intro h
    obtain ⟨_, ⟨x, d, he, rfl⟩, hfailure⟩ := h
    exact ⟨(x, d), he, (hedge _ he.mem failure).2 ⟨he.holds, hfailure⟩⟩

end DependencyMap.Describes

section Chain

open Inspection

variable {expected root : Name} {modules : List Manifest} {m : DependencyMap}
variable {o : Except Failure Unit}

/-- The rules that read the map settle what the clauses about dependencies say. -/
theorem outcome_readers_iff (h : m.Describes root modules)
    (hbase : ∀ x ∈ modules, x.isBase → ¬x.onDemand) :
    Rule.outcome ⟨modules, expected, some m⟩
        [.noSelfDependencies, .noRepeats, .knownModules, .noCycles, .deliveryOrder] = o ↔
      Verdict [Clause.selfDependency modules, Clause.repeatedDependency modules,
        Clause.unknownModule modules, Clause.cycle modules, Clause.deliveryOrder modules] o := by
  refine outcome_eq_iff_verdict rfl (map_violation_eq_some_iff fun v => h.selfViolation?_iff)
    fun _ => ?_
  refine outcome_eq_iff_verdict rfl (map_violation_eq_some_iff fun v => h.repeatViolation?_iff)
    fun _ => ?_
  refine outcome_eq_iff_verdict rfl (map_violation_eq_some_iff fun v => h.unknownViolation?_iff)
    fun hunknown => ?_
  refine outcome_eq_iff_verdict rfl (map_violation_eq_some_iff fun v => h.cycleViolation?_iff)
    fun _ => ?_
  have known : ∀ d ∈ m.targets, d ∈ m.keys := by
    simpa [unknownViolation?] using hunknown
  refine outcome_eq_iff_verdict rfl (h.deliveryFailures?_iff hbase known) fun _ => ?_
  rw [verdict_nil_iff, Rule.outcome_nil]

theorem outcome_dependencyMap_iff (hroot : baseName? modules = some root)
    (hbase : ∀ x ∈ modules, x.isBase → ¬x.onDemand) :
    Rule.outcome ⟨modules, expected, none⟩ [.dependencyMap, .noSelfDependencies, .noRepeats,
        .knownModules, .noCycles, .deliveryOrder] = o ↔
      Verdict [Clause.misplaced modules, Clause.selfDependency modules,
        Clause.repeatedDependency modules, Clause.unknownModule modules, Clause.cycle modules,
        Clause.deliveryOrder modules] o := by
  rcases DependencyMap.ofModules_cases hroot with ⟨m, hm, hdesc, hnone⟩ | ⟨before, x, hm, hfirst⟩
  · have hkept : ∀ v, ¬Clause.misplaced modules v := by
      rintro v ⟨root', hroot', before, x, hfirst, -⟩
      obtain rfl : root = root' := Option.some.inj (hroot.symm.trans hroot')
      exact hnone before x hfirst
    rw [Rule.outcome_cons_of_ok (Rule.check_dependencyMap_of_ok hm), verdict_cons_of_kept hkept]
    exact outcome_readers_iff hdesc hbase
  · have hunique : ∀ v, Clause.misplaced modules v ↔ v = misplacement root before x := by
      intro v
      constructor
      · intro h
        obtain ⟨root', hroot', before', x', hfirst', rfl⟩ := h
        obtain rfl : root = root' := Option.some.inj (hroot.symm.trans hroot')
        obtain ⟨rfl, rfl⟩ := hfirst.unique hfirst'
        rfl
      · rintro rfl
        exact ⟨root, hroot, before, x, hfirst, rfl⟩
    rw [Rule.outcome_cons_of_error (Rule.check_dependencyMap_of_error hm),
      verdict_cons_of_violated hunique]

theorem outcome_defaults_iff :
    Rule.outcome ⟨modules, expected, none⟩ Rule.defaults = o ↔
      Verdict (Clause.all expected modules) o := by
  by_cases hbase : ∃ x ∈ modules, x.isBase
  · have hkept : ∀ v, ¬Clause.missingBase expected modules v := by
      rintro v ⟨hnone, -⟩
      obtain ⟨x, hx, hx'⟩ := hbase
      exact hnone x hx hx'
    obtain ⟨x, hx⟩ := exists_isFirst_iff.2 hbase
    have hroot : baseName? modules = some x.name := baseName?_eq_some_iff.2 ⟨x, hx, rfl⟩
    rw [Clause.all, verdict_cons_of_kept hkept]
    refine outcome_eq_iff_verdict rfl
      (map_violation_eq_some_iff fun v => baseViolation?_of_base hbase) fun hnone => ?_
    refine outcome_eq_iff_verdict rfl
      (map_violation_eq_some_iff fun v => splitIdViolation?_eq_some_iff) fun _ => ?_
    refine outcome_dependencyMap_iff hroot fun y hy hybase hydemand => ?_
    have hexists : ∃ y ∈ modules, y.isBase ∧ y.onDemand := ⟨y, hy, hybase, hydemand⟩
    obtain ⟨z, hz⟩ := exists_isFirst_iff.2 hexists
    have hsome : baseViolation? expected modules = some (.onDemandBase z.name) :=
      (baseViolation?_of_base hbase).2 ⟨z, hz, rfl⟩
    simp [hsome] at hnone
  · have hnone : ∀ x ∈ modules, ¬x.isBase := fun x hx hb => hbase ⟨x, hx, hb⟩
    have hunique : ∀ v, Clause.missingBase expected modules v ↔ v = .missingBase expected :=
      fun v => ⟨fun hv => hv.2, fun hv => ⟨hnone, hv⟩⟩
    have hcheck : Rule.basePresence.check ⟨modules, expected, none⟩ =
        .error (.violation (.missingBase expected)) := by
      simp [Rule.check, baseViolation?_of_no_base hnone, Context.pass]
    rw [Rule.defaults, Rule.outcome_cons_of_error hcheck, Clause.all,
      verdict_cons_of_violated hunique]

end Chain

/-- A validation comes to exactly the verdict of the clauses, one of which describes a cycle where
there is one. -/
theorem validate_eq_iff_verdict (expected : Name) (modules : List Manifest) :
    (∀ o, validate modules expected = o ↔ Verdict (Clause.all expected modules) o) ∧
      ((∃ v, Clause.cycle modules v) ↔ Cyclic modules) := by
  refine ⟨fun o => ?_, exists_cycle_iff⟩
  rw [Rule.validate_eq_outcome, outcome_defaults_iff]

end BundleGraph
