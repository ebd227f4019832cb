import Mathlib
import BundleGraph.Proofs.Audit.Inspection
import BundleGraph.Proofs.Audit.Rule

/-!
# The order of rules

Some rules need others in front of them: a base module has to be there before the map is built, the
map before it is read, and all dependencies have to be known before their delivery is looked up.
What a passed rule leaves behind is just what the later ones rely on, so rules in such an order
never give up; and where the order is broken for the first time, some bundle passes all rules so far
and makes the next one give up.
-/
namespace BundleGraph.Rule

/-- The rules that have to stand in front of a rule. -/
def needs : Rule → List Rule
  | basePresence => []
  | splitIds => []
  | dependencyMap => [basePresence]
  | noSelfDependencies => [dependencyMap]
  | noRepeats => [dependencyMap]
  | knownModules => [dependencyMap]
  | noCycles => [dependencyMap]
  | deliveryOrder => [dependencyMap, knownModules]

/-- In front of every rule stand the rules that it needs. -/
def InOrder (rules : List Rule) : Prop :=
  ∀ before r after, rules = before ++ r :: after → r.needs ⊆ before

/-- The rules are in order behind the ones that have passed. -/
def InOrderAfter (passed : List Rule) : List Rule → Prop
  | [] => True
  | r :: rest => r.needs ⊆ passed ∧ InOrderAfter (r :: passed) rest

theorem inOrderAfter_iff {passed rules : List Rule} :
    InOrderAfter passed rules ↔
      ∀ before r after, rules = before ++ r :: after → r.needs ⊆ before ++ passed := by
  induction rules generalizing passed with
  | nil => simp [InOrderAfter]
  | cons r rules ih =>
    rw [InOrderAfter, ih]
    constructor
    · rintro ⟨hr, hrest⟩ (_ | ⟨b, before⟩) r' after h
      · obtain ⟨rfl, -⟩ := List.cons.inj h
        exact hr
      · obtain ⟨rfl, rfl⟩ := List.cons.inj h
        intro x hx
        have := hrest before r' after rfl hx
        simp only [List.mem_append, List.mem_cons] at this ⊢
        tauto
    · intro h
      refine ⟨h [] r rules rfl, ?_⟩
      rintro before r' after rfl x hx
      have := h (r :: before) r' after rfl hx
      simp only [List.mem_append, List.mem_cons] at this ⊢
      tauto

theorem inOrder_iff_inOrderAfter {rules : List Rule} : InOrder rules ↔ InOrderAfter [] rules := by
  simp [inOrderAfter_iff, InOrder]

instance decidableInOrderAfter (passed : List Rule) :
    (rules : List Rule) → Decidable (InOrderAfter passed rules)
  | [] => .isTrue trivial
  | r :: rest =>
    have := decidableInOrderAfter (r :: passed) rest
    inferInstanceAs (Decidable (r.needs ⊆ passed ∧ InOrderAfter (r :: passed) rest))

instance (rules : List Rule) : Decidable (InOrder rules) :=
  decidable_of_iff _ inOrder_iff_inOrderAfter.symm

theorem inOrder_defaults : InOrder defaults := by decide

/-- What the rules that have passed leave behind. -/
structure Established (passed : List Rule) (c : Context) : Prop where
  base : basePresence ∈ passed → ∃ x ∈ c.modules, x.isBase
  map : c.map? ≠ none ↔ dependencyMap ∈ passed
  built : ∀ m ∈ c.map?, DependencyMap.ofModules c.modules = .ok m
  known : knownModules ∈ passed →
    ∀ m, DependencyMap.ofModules c.modules = .ok m → ∀ d ∈ m.targets, d ∈ m.keys

theorem established_nil (modules : List Manifest) (expected : Name) :
    Established [] ⟨modules, expected, none⟩ :=
  ⟨by simp, by simp, by simp, by simp⟩

variable {c c' : Context} {r : Rule} {passed rules : List Rule}

theorem exists_base_of_check (h : basePresence.check c = .ok c') : ∃ x ∈ c.modules, x.isBase := by
  obtain ⟨hnone, -⟩ := Context.pass_eq_ok_iff.1 h
  by_contra hbase
  have hmissing : Inspection.baseViolation? c.expectedBase c.modules = some _ :=
    Inspection.baseViolation?_of_no_base fun x hx hb => hbase ⟨x, hx, hb⟩
  simp [hmissing] at hnone

theorem known_of_check (h : knownModules.check c = .ok c') :
    ∃ m, c.map? = some m ∧ ∀ d ∈ m.targets, d ∈ m.keys := by
  obtain ⟨⟨m, hm, hnone⟩, -⟩ := Context.map_bind_pass_eq_ok_iff.1 h
  exact ⟨m, hm, by simpa [Inspection.unknownViolation?] using hnone⟩

theorem Established.step (h : Established passed c) (hr : r.check c = .ok c') :
    Established (r :: passed) c' ∧ c'.modules = c.modules := by
  have hbase : basePresence ∈ r :: passed → ∃ x ∈ c.modules, x.isBase := by
    intro hmem
    rcases List.mem_cons.1 hmem with rfl | hmem
    · exact exists_base_of_check hr
    · exact h.base hmem
  have hknown : knownModules ∈ r :: passed →
      ∀ m, DependencyMap.ofModules c.modules = .ok m → ∀ d ∈ m.targets, d ∈ m.keys := by
    intro hmem m hm
    rcases List.mem_cons.1 hmem with rfl | hmem
    · obtain ⟨m', hm', hknown⟩ := known_of_check hr
      obtain rfl := Except.ok.inj ((h.built m' hm').symm.trans hm)
      exact hknown
    · exact h.known hmem m hm
  rcases check_eq_ok_cases hr with ⟨hne, rfl⟩ | ⟨rfl, m, hm, rfl⟩
  · refine ⟨⟨hbase, ?_, h.built, hknown⟩, rfl⟩
    rw [h.map, List.mem_cons]
    exact ⟨.inr, fun hmem => hmem.resolve_left hne.symm⟩
  · exact ⟨⟨hbase, by simp, by simpa using hm, hknown⟩, rfl⟩

/-- The three ways in which a rule gives up. -/
theorem check_eq_fault_cases {f : Fault} (h : r.check c = .error (.fault f)) :
    r = dependencyMap ∧ baseName? c.modules = none ∨
      dependencyMap ∈ r.needs ∧ c.map? = none ∨
      r = deliveryOrder ∧ ∃ m, c.map? = some m ∧
        ∃ e ∈ m.edges, Inspection.deliveryFailure? c.modules e = some (.fault f) := by
  cases r with
  | basePresence => simpa using Context.pass_eq_error_iff.1 h
  | splitIds => simpa using Context.pass_eq_error_iff.1 h
  | dependencyMap =>
    cases hm : DependencyMap.ofModules c.modules with
    | ok m => simp [check_dependencyMap_of_ok hm] at h
    | error failure =>
      rw [check_dependencyMap_of_error hm, Except.error.injEq] at h
      subst h
      exact .inl ⟨rfl, (DependencyMap.ofModules_eq_fault_iff.1 hm).1⟩
  | noSelfDependencies => exact .inr (.inl ⟨by decide, (Context.passMap_eq_fault_iff.1 h).1⟩)
  | noRepeats => exact .inr (.inl ⟨by decide, (Context.passMap_eq_fault_iff.1 h).1⟩)
  | knownModules => exact .inr (.inl ⟨by decide, (Context.passMap_eq_fault_iff.1 h).1⟩)
  | noCycles => exact .inr (.inl ⟨by decide, (Context.passMap_eq_fault_iff.1 h).1⟩)
  | deliveryOrder =>
    rcases Context.map_bind_pass_eq_error_iff.1 h with ⟨hnone, -⟩ | ⟨m, hm, hfound⟩
    · exact .inr (.inl ⟨by decide, hnone⟩)
    · obtain ⟨e, he, hf⟩ := List.exists_of_findSome?_eq_some hfound
      exact .inr (.inr ⟨rfl, m, hm, e, he, hf⟩)

theorem deliveryFailure?_ne_fault {modules : List Manifest} {e : Name × Name} {f : Fault}
    (hfst : e.1 ∈ modules.map Manifest.name) (hsnd : e.2 ∈ modules.map Manifest.name) :
    Inspection.deliveryFailure? modules e ≠ some (.fault f) := by
  unfold Inspection.deliveryFailure?
  cases hx : Manifest.last? modules e.1 with
  | none => exact absurd hfst (last?_eq_none_iff.1 hx)
  | some x =>
    cases hy : Manifest.last? modules e.2 with
    | none => exact absurd hsnd (last?_eq_none_iff.1 hy)
    | some y => by_cases hxd : x.onDemand <;> by_cases hyd : y.onDemand <;> simp [hxd, hyd]

/-- Behind the rules that it needs, a rule does not give up. -/
theorem Established.check_ne_fault (h : Established passed c) (hr : r.needs ⊆ passed) (f : Fault) :
    r.check c ≠ .error (.fault f) := by
  intro hf
  rcases check_eq_fault_cases hf with ⟨rfl, hnone⟩ | ⟨hmap, hnone⟩ | ⟨rfl, m, hm, e, he, hfound⟩
  · obtain ⟨x, hx, hbase⟩ := h.base (hr (by decide))
    exact baseName?_eq_none_iff.1 hnone x hx hbase
  · exact h.map.2 (hr hmap) hnone
  · have hbuilt := h.built m hm
    obtain ⟨root, hdesc⟩ := DependencyMap.exists_describes hbuilt
    have hknown := h.known (hr (by decide)) m hbuilt
    refine deliveryFailure?_ne_fault ?_ ?_ hfound
    · obtain ⟨row, hrow, hmem⟩ := List.mem_flatMap.1 he
      obtain ⟨d, -, rfl⟩ := List.mem_map.1 hmem
      exact hdesc.keys_eq ▸ List.mem_map_of_mem hrow
    · exact hdesc.keys_eq ▸ hknown e.2 (List.mem_map_of_mem he)

theorem Established.raise_ne_fault (h : Established passed c) (hrules : InOrderAfter passed rules)
    (f : Fault) : kind.raise c rules ≠ .error (.fault f) := by
  induction rules generalizing passed c with
  | nil => exact nofun
  | cons r rules ih =>
    cases hr : r.check c with
    | ok c' =>
      rw [RuleKind.raise_cons_of_ok (k := kind) hr]
      exact ih (h.step hr).1 hrules.2
    | error failure =>
      rw [RuleKind.raise_cons_of_error (k := kind) hr]
      rintro ⟨⟩
      exact h.check_ne_fault hrules.1 f hr

/-- Rules in order that find nothing wrong with the modules pass. -/
theorem Established.exists_passes (h : Established passed c) (hrules : InOrderAfter passed rules)
    (clean : ∀ r ∈ rules, ∀ c' : Context, c'.modules = c.modules →
      (∀ m ∈ c'.map?, DependencyMap.ofModules c'.modules = .ok m) →
      ∀ v, r.check c' ≠ .error (.violation v)) :
    ∃ c', kind.Passes c rules c' ∧ Established (rules.reverse ++ passed) c' ∧
      c'.modules = c.modules := by
  induction rules generalizing passed c with
  | nil => exact ⟨c, .nil c, h, rfl⟩
  | cons r rules ih =>
    cases hr : r.check c with
    | error failure =>
      cases failure with
      | violation v => exact absurd hr (clean r (by simp) c rfl h.built v)
      | fault f => exact absurd hr (h.check_ne_fault hrules.1 f)
    | ok c' =>
      obtain ⟨hc', hmodules⟩ := h.step hr
      obtain ⟨c'', hpasses, hc'', hmodules'⟩ := ih hc' hrules.2 fun r' hr' c'' hc'' =>
        clean r' (by simp [hr']) c'' (hc''.trans hmodules)
      exact ⟨c'', .cons hr hpasses, by simpa using hc'', hmodules'.trans hmodules⟩

theorem InOrder.mem_of_needs (h : InOrder rules) (hr : r ∈ rules) {n : Rule} (hn : n ∈ r.needs) :
    n ∈ rules := by
  obtain ⟨before, after, rfl⟩ := List.append_of_mem hr
  exact List.mem_append_left _ (h before r after rfl hn)

/-- A base module that depends on a module which is not there. -/
def strayBundle : List Manifest := [⟨"base", true, false, none, ["ghost"]⟩]

def strayMap : DependencyMap := ⟨"base", [("base", ["ghost", "base"])], by decide⟩

theorem ofModules_strayBundle : DependencyMap.ofModules strayBundle = .ok strayMap := rfl

/-- Only the rules on unknown modules and on delivery mind the dependency that is not there. -/
theorem check_strayBundle_ne_violation (hmodules : c.modules = strayBundle)
    (built : ∀ m ∈ c.map?, DependencyMap.ofModules c.modules = .ok m) (hknown : r ≠ knownModules)
    (hdelivery : r ≠ deliveryOrder) (v : Violation) : r.check c ≠ .error (.violation v) := by
  intro hv
  have reads {violation? : DependencyMap → Option Violation}
      (hv : c.passMap violation? = .error (.violation v)) : violation? strayMap ≠ none := by
    obtain ⟨m, hm, hfound⟩ := Context.passMap_eq_violation_iff.1 hv
    have hbuilt := built m hm
    rw [hmodules, ofModules_strayBundle, Except.ok.injEq] at hbuilt
    subst hbuilt
    simp [hfound]
  cases r with
  | basePresence =>
    have hfound := Context.pass_eq_error_iff.1 hv
    rw [hmodules] at hfound
    exact nomatch hfound
  | splitIds =>
    have hfound := Context.pass_eq_error_iff.1 hv
    rw [hmodules] at hfound
    exact nomatch hfound
  | dependencyMap => simp [check, hmodules, ofModules_strayBundle, Except.map] at hv
  | noSelfDependencies => exact reads hv (by decide)
  | noRepeats => exact reads hv (by decide)
  | knownModules => exact hknown rfl
  | noCycles => exact reads hv (by cbv)
  | deliveryOrder => exact hdelivery rfl

theorem deliveryFailures?_strayBundle :
    Inspection.deliveryFailures? strayBundle strayMap = some (.fault (.noSuchModule "ghost")) := rfl

variable {before : List Rule} (expected : Name)

/-- Without the rule on the base module only the split IDs can be checked, and then there is no
map for a bundle without modules. -/
theorem exists_passes_no_modules (horder : InOrder before) (hbase : basePresence ∉ before) :
    ∃ c, kind.Passes ⟨[], expected, none⟩ before c ∧ c.modules = [] := by
  have hmap : dependencyMap ∉ before := fun h => hbase (horder.mem_of_needs h (by decide))
  obtain ⟨c, hpasses, -, hmodules⟩ := (established_nil [] expected).exists_passes
    (inOrder_iff_inOrderAfter.1 horder) fun r hr c' hc' _ v hv => by
      have hnone : dependencyMap ∉ r.needs := fun h => hmap (horder.mem_of_needs hr h)
      cases r with
      | basePresence => exact hbase hr
      | splitIds =>
        have hfound := Context.pass_eq_error_iff.1 hv
        rw [hc'] at hfound
        exact nomatch hfound
      | dependencyMap => exact hmap hr
      | noSelfDependencies | noRepeats | knownModules | noCycles | deliveryOrder =>
        exact hnone (by decide)
  exact ⟨c, hpasses, hmodules⟩

/-- Without the rules that mind it, the bundle with the missing module passes. -/
theorem exists_passes_strayBundle (horder : InOrder before) (hknown : knownModules ∉ before) :
    ∃ c, kind.Passes ⟨strayBundle, expected, none⟩ before c ∧ c.modules = strayBundle ∧
      (c.map? = if dependencyMap ∈ before then some strayMap else none) := by
  have hdelivery : deliveryOrder ∉ before := fun h => hknown (horder.mem_of_needs h (by decide))
  obtain ⟨c, hpasses, hc, hmodules⟩ := (established_nil strayBundle expected).exists_passes
    (inOrder_iff_inOrderAfter.1 horder) fun r hr c' hc' built =>
      check_strayBundle_ne_violation hc' built (fun h => hknown (h ▸ hr))
        (fun h => hdelivery (h ▸ hr))
  refine ⟨c, hpasses, hmodules, ?_⟩
  have hmap : c.map? ≠ none ↔ dependencyMap ∈ before := by simpa using hc.map
  cases hm : c.map? with
  | none => rw [if_neg fun h => hmap.2 h hm]
  | some m =>
    have hbuilt := hc.built m hm
    rw [hmodules, ofModules_strayBundle, Except.ok.injEq] at hbuilt
    rw [if_pos (hmap.1 (by simp [hm])), hbuilt]

variable {expected} {after : List Rule}

theorem validate_of_passes {modules : List Manifest} {f : Fault}
    (hpasses : kind.Passes ⟨modules, expected, none⟩ before c)
    (hf : r.check c = .error (.fault f)) :
    validate modules expected (before ++ r :: after) = .error (.fault f) :=
  RuleKind.FirstFailure.raise_eq ⟨before, after, c, rfl, hpasses, hf⟩

theorem fault_of_no_base (horder : InOrder before) (hbase : basePresence ∉ before) :
    validate [] expected (before ++ dependencyMap :: after) = .error (.fault .noBaseModule) := by
  obtain ⟨c, hpasses, hmodules⟩ := exists_passes_no_modules expected horder hbase
  refine validate_of_passes hpasses (check_dependencyMap_of_error ?_)
  rw [hmodules]
  rfl

theorem fault_of_no_map (horder : InOrder before) (hr : dependencyMap ∈ r.needs)
    (hmap : dependencyMap ∉ before) :
    validate strayBundle expected (before ++ r :: after) = .error (.fault .mapNotBuilt) := by
  have hknown : knownModules ∉ before := fun h => hmap (horder.mem_of_needs h (by decide))
  obtain ⟨c, hpasses, -, hc⟩ := exists_passes_strayBundle expected horder hknown
  rw [if_neg hmap] at hc
  refine validate_of_passes hpasses ?_
  have hread : c.map = .error (.fault .mapNotBuilt) := by rw [Context.map, hc]
  cases r with
  | basePresence | splitIds | dependencyMap => simp [needs] at hr
  | noSelfDependencies | noRepeats | knownModules | noCycles | deliveryOrder =>
    simp [check, Context.passMap, hread, Except.bind]

theorem fault_of_unknown (horder : InOrder before) (hmap : dependencyMap ∈ before)
    (hknown : knownModules ∉ before) :
    validate strayBundle expected (before ++ deliveryOrder :: after) =
      .error (.fault (.noSuchModule "ghost")) := by
  obtain ⟨c, hpasses, hmodules, hc⟩ :=
    exists_passes_strayBundle expected horder hknown
  rw [if_pos hmap] at hc
  refine validate_of_passes hpasses
    (Context.map_bind_pass_eq_error_iff.2 (.inr ⟨strayMap, hc, ?_⟩))
  rw [hmodules, deliveryFailures?_strayBundle]

theorem exists_fault (h : ¬InOrder rules) (expected : Name) :
    ∃ modules f, (∀ x ∈ modules, x.name ≠ []) ∧
      validate modules expected rules = .error (.fault f) := by
  -- The rules in front of the first one that lacks a rule it needs are in order.
  obtain ⟨before, r, ⟨⟨after, rfl⟩, hr, hbefore⟩⟩ :
      ∃ b r, IsFirstAt (fun b r => ¬r.needs ⊆ b) rules b r := by
    unfold InOrder at h
    push Not at h
    obtain ⟨before, r, after, rfl, hr⟩ := h
    exact exists_isFirstAt after hr
  have horder : InOrder before := fun b r' a hsplit => not_not.1 (hbefore b r' a hsplit)
  have hname : ∀ x ∈ strayBundle, x.name ≠ [] := by decide
  have hunmapped (hneeds : dependencyMap ∈ r.needs) (hmap : dependencyMap ∉ before) :=
    (⟨strayBundle, _, hname, fault_of_no_map horder hneeds hmap⟩ :
      ∃ modules f, (∀ x ∈ modules, x.name ≠ []) ∧
        validate modules expected (before ++ r :: after) = .error (.fault f))
  cases r with
  | basePresence | splitIds => simp [needs] at hr
  | dependencyMap => exact ⟨[], _, by simp, fault_of_no_base horder (by simpa [needs] using hr)⟩
  | noSelfDependencies | noRepeats | knownModules | noCycles =>
    exact hunmapped (by decide) (by simpa [needs] using hr)
  | deliveryOrder =>
    by_cases hmap : dependencyMap ∈ before
    · exact ⟨strayBundle, _, hname, fault_of_unknown horder hmap (by simpa [needs, hmap] using hr)⟩
    · exact hunmapped (by decide) hmap

/-- Rules give a report about every bundle exactly if they are in order, which the default ones
are; otherwise even some bundle of named modules makes them give up. -/
theorem exists_report_iff_inOrder (rules : List Rule) (expected : Name) :
    ((∀ modules, ∃ report, audit rules expected modules = .ok report) ↔ InOrder rules) ∧
      (¬InOrder rules → ∃ modules f, (∀ x ∈ modules, x.name ≠ []) ∧
        audit rules expected modules = .error f) ∧
      InOrder defaults ∧ ∀ modules f, audit defaults expected modules ≠ .error f := by
  have hreports {rules : List Rule} (h : InOrder rules) (modules : List Manifest) (f : Fault) :
      audit rules expected modules ≠ .error f := fun hf =>
    (established_nil modules expected).raise_ne_fault (inOrder_iff_inOrderAfter.1 h) f
      (audit_eq_error_iff.1 hf)
  have hbroken (h : ¬InOrder rules) : ∃ modules f, (∀ x ∈ modules, x.name ≠ []) ∧
      audit rules expected modules = .error f := by
    obtain ⟨modules, f, hnames, hf⟩ := exists_fault h expected
    exact ⟨modules, f, hnames, audit_eq_error_iff.2 hf⟩
  refine ⟨⟨fun h => ?_, fun h modules => ?_⟩, hbroken, inOrder_defaults, hreports inOrder_defaults⟩
  · by_contra hbad
    obtain ⟨modules, f, -, hf⟩ := hbroken hbad
    obtain ⟨report, hreport⟩ := h modules
    simp [hf] at hreport
  · cases hreport : audit rules expected modules with
    | ok report => exact ⟨report, rfl⟩
    | error f => exact absurd hreport (hreports h modules f)

end BundleGraph.Rule
