import BundleGraph.Proofs.Audit.Inspection

/-!
# The first violation in the order of the map

The inspections of a map say nothing about where it comes from: targets may be no keys, dependencies
may be repeated and the base module may be missing. Each of them tells the first key, row, target or
edge with which something is wrong. An edge can be wrong in three ways, two of which are no
violations: a name that no module has cannot be looked up.
-/
namespace BundleGraph.Inspection

variable {modules : List Manifest} {m : DependencyMap} {e : Name × Name} {f : Failure}

/-- Why an edge is not in order of delivery. The last module of a name is the one that counts, and
the module of the target only if the module of the key is delivered at install time. -/
inductive Undelivered (modules : List Manifest) : Name × Name → Failure → Prop
  | noKey {key target : Name} (h : key ∉ modules.map Manifest.name) :
      Undelivered modules (key, target) (.fault (.noSuchModule key))
  | noTarget {key target : Name} {x : Manifest}
      (hx : IsLast (fun y => y.name = key) modules x) (early : x.isInstallTime)
      (h : target ∉ modules.map Manifest.name) :
      Undelivered modules (key, target) (.fault (.noSuchModule target))
  | late {key target : Name} {x y : Manifest}
      (hx : IsLast (fun y => y.name = key) modules x) (early : x.isInstallTime)
      (hy : IsLast (fun z => z.name = target) modules y) (late : y.onDemand) :
      Undelivered modules (key, target) (.violation (.onDemandDependency key target))

theorem isInstallTime_iff {x : Manifest} : x.isInstallTime ↔ ¬x.onDemand := by
  simp [Manifest.isInstallTime]

theorem deliveryFailure?_iff_undelivered : deliveryFailure? modules e = some f ↔
    Undelivered modules e f := by
  obtain ⟨key, target⟩ := e
  constructor
  · intro h
    rw [deliveryFailure?] at h
    cases hx : Manifest.last? modules key with
    | none =>
      rw [hx, Option.some.injEq] at h
      exact h ▸ .noKey (last?_eq_none_iff.1 hx)
    | some x =>
      cases hy : Manifest.last? modules target with
      | none =>
        simp only [hx, hy] at h
        split_ifs at h with hdemand
        rw [Option.some.injEq] at h
        exact h ▸ .noTarget (last?_eq_some_iff.1 hx) (isInstallTime_iff.2 hdemand)
          (last?_eq_none_iff.1 hy)
      | some y =>
        simp only [hx, hy] at h
        split_ifs at h with hdemand late
        rw [Option.some.injEq] at h
        exact h ▸ .late (last?_eq_some_iff.1 hx) (isInstallTime_iff.2 hdemand)
          (last?_eq_some_iff.1 hy) late
  · rintro (h | ⟨hx, early, h⟩ | ⟨hx, early, hy, late⟩)
    · rw [deliveryFailure?, last?_eq_none_iff.2 h]
    · simp only [deliveryFailure?, last?_eq_some_iff.2 hx, last?_eq_none_iff.2 h,
        if_neg (isInstallTime_iff.1 early)]
    · simp only [deliveryFailure?, last?_eq_some_iff.2 hx, last?_eq_some_iff.2 hy,
        if_neg (isInstallTime_iff.1 early), if_pos late]

theorem deliveryFailures?_eq_some_iff : deliveryFailures? modules m = some f ↔
    ∃ e, IsFirst (fun e => ∃ f, Undelivered modules e f) m.edges e ∧ Undelivered modules e f := by
  have hsome : ∀ e ∈ m.edges,
      ((deliveryFailure? modules e).isSome ↔ ∃ f, Undelivered modules e f) := by
    intro e _
    simp only [Option.isSome_iff_exists, deliveryFailure?_iff_undelivered]
  unfold deliveryFailures?
  simp only [findSome?_eq_some_iff_isFirst, isFirst_congr hsome, deliveryFailure?_iff_undelivered]

theorem exists_firstRepeat {l : List Name} (h : ¬l.Nodup) :
    ∃ d before, IsFirstAt (fun b y => y ∈ b) l before d := by
  obtain ⟨d, hd⟩ : ∃ d, firstRepeat? [] l = some d := by
    rw [← Option.ne_none_iff_exists', ne_eq, firstRepeat?_eq_none_iff]
    exact fun hnodup => h hnodup.1
  obtain ⟨before, hfirst⟩ := firstRepeat?_eq_some_iff.1 hd
  exact ⟨d, before, (isFirstAt_congr fun b y => by simp).1 hfirst⟩

/-- Whatever a map holds, each inspection tells the first that is wrong: the first key, the base
module apart, with an edge to itself; the first key that repeats a target, and the target that it
repeats first; the first target that is no key; the first edge that is not in order of delivery. If
there is none, it finds nothing. -/
theorem inspections_tell_first (m : DependencyMap) :
    TellsFirst (fun x => x ≠ m.base ∧ m.Edge x x) m.keys (fun x v => v = .selfDependency x)
        (selfViolation? m) ∧
      TellsFirst (fun row => ¬row.2.Nodup) m.rows
        (fun row v => ∃ d, (∃ before, IsFirstAt (fun b y => y ∈ b) row.2 before d) ∧
          v = .repeatedDependency row.1 d)
        (repeatViolation? m) ∧
      TellsFirst (· ∉ m.keys) m.targets (fun d v => v = .unknownModule d) (unknownViolation? m) ∧
      ∀ modules, TellsFirst (fun e => ∃ f, Undelivered modules e f) m.edges (Undelivered modules)
        (deliveryFailures? modules m) := by
  refine ⟨?_, ?_, ?_, fun modules => ?_⟩
  · simp only [DependencyMap.edge_iff]
    exact tellsFirst_of_some_iff (fun _ => selfViolation?_eq_some_iff) fun _ _ _ => ⟨_, rfl⟩
  · refine tellsFirst_of_some_iff (fun v => ?_) fun row _ hrow => ?_
    · rw [repeatViolation?_eq_some_iff]
      simp only [exists_and_left]
    · obtain ⟨d, hd⟩ := exists_firstRepeat hrow
      exact ⟨_, d, hd, rfl⟩
  · exact tellsFirst_of_some_iff (fun _ => unknownViolation?_eq_some_iff) fun _ _ _ => ⟨_, rfl⟩
  · exact tellsFirst_of_some_iff (fun _ => deliveryFailures?_eq_some_iff) fun _ _ h => h

/-- The last module of a name counts, and a target is not looked up for a module on demand. -/
example : deliveryFailures? [⟨"a", false, false, none, []⟩, ⟨"b", false, true, none, []⟩,
    ⟨"a", false, true, none, []⟩, ⟨"c", false, false, none, []⟩]
    (.ofPairs "base" [("a", ["x"]), ("c", ["c", "b", "y"])]) =
      some (.violation (.onDemandDependency "c" "b")) := by decide

end BundleGraph.Inspection
